import FissLock.Host.Frame
import FissLock.Library.Runs

/-!
# Receiving from capture files

`bmv2_net.cc` receives by reading what the switch has written to its three capture files.  It keeps
the size that all of them had when it read them last, and looks into them again if they have grown;
and it keeps for each file how many packets it has read, so that it does not dispatch them again.

`bmv2_net_configure` takes the present size, and forgets how many packets were read.  So what is in
the files then is not looked at, until a packet is appended: then all of it is dispatched.  And of a
frame little is checked before it is dispatched as a lock packet: a single byte behind the UDP header
will do.  `dispatched_once_iff` says when exactly the lock packets appended are dispatched, which
`wellFormedPost` reads off `post.h`.

`net_poll_packets` takes many steps, and the switch may append a packet between any two of them,
also while the sizes are added up.  `Capture.Inv` says what the two accounts, in bytes and in
packets, have to do with each other at each of these points.
-/

namespace FissLock

/-! ## One packet -/

/-- The checks of `scan_pcap_file`: the UDP payload that it passes on.  `caplen` is the length of
the packet. -/
def acceptFrame (pkt : List Byte) : Option (List Byte) :=
  if pkt.length < 14 + 20 + 8 + 1 then none
  else
    let ip := pkt.drop 14
    if ip.getD 0 0 >>> 4 ≠ 4 then none
    else
      let ihl := (ip.getD 0 0 &&& 0x0f).toNat * 4
      let udp := ip.drop ihl
      if pkt.length < 14 + ihl + 8 + 1 then none
      else
        let dport := readBe16 udp 2
        if dport ≠ SERVER_POST_TYPE.toNat ∧ dport ≠ CLIENT_POST_TYPE.toNat then none
        else some (udp.drop 8)

/-- `NUM_POST_TYPES`. -/
def NUM_POST_TYPES : ℕ := 9

/-- `g_dispatchers[t]`, as `lock_setup` registers them. -/
def hasDispatcher (t : Byte) : Bool := decide (1 ≤ t.toNat ∧ t.toNat ≤ 6)

/-- `dispatch_udp_payload`, up to the call of the dispatcher: the copy that it is given. -/
def dispatchPayload (payload : List Byte) : Option (List Byte) :=
  match payload with
  | [] => none
  | t :: _ =>
      if t.toNat ≤ 0 ∨ NUM_POST_TYPES ≤ t.toNat then none
      else if hasDispatcher t then some payload else none

/-- What is dispatched of a frame, if it is taken for one with a lock packet. -/
def lockPost (pkt : List Byte) : Option (List Byte) := (acceptFrame pkt).bind dispatchPayload

/-! ## Lock packets, by their format -/

/-- A lock packet in the format of `post.h`: the two headers, with one of the six types of lock
posts, and as many queue entries of five bytes as the header says. -/
def IsLockPost (post : List Byte) : Prop :=
  ∃ r ∈ readPost post, 1 ≤ r.1.type.toNat ∧ r.1.type.toNat ≤ 6 ∧ r.1.wqSize.toNat * 5 ≤ r.2.length

instance (post : List Byte) : Decidable (IsLockPost post) :=
  inferInstanceAs (Decidable (∃ r ∈ readPost post, _))

/-- What is behind the Ethernet, IPv4 and UDP headers of a frame. -/
def udpPayload (pkt : List Byte) : List Byte :=
  pkt.drop (14 + ((pkt.getD 14 0) &&& 0x0f).toNat * 4 + 8)

/-- A frame with a lock packet: an Ethernet header that says IPv4, an IPv4 header that says UDP, a UDP
header with one of the two ports for posts, and the lock packet behind them. -/
structure IsLockFrame (pkt : List Byte) : Prop where
  ethernet : readBe16 pkt 12 = 0x0800
  version : pkt.getD 14 0 >>> 4 = 4
  ihl : 5 ≤ (pkt.getD 14 0 &&& 0x0f).toNat
  protocol : pkt.getD 23 0 = 17
  port : readBe16 (pkt.drop (14 + (pkt.getD 14 0 &&& 0x0f).toNat * 4)) 2 = SERVER_POST_TYPE.toNat
    ∨ readBe16 (pkt.drop (14 + (pkt.getD 14 0 &&& 0x0f).toNat * 4)) 2 = CLIENT_POST_TYPE.toNat
  post : IsLockPost (udpPayload pkt)

instance (pkt : List Byte) : Decidable (IsLockFrame pkt) :=
  decidable_of_iff
    (readBe16 pkt 12 = 0x0800 ∧ pkt.getD 14 0 >>> 4 = 4 ∧ 5 ≤ (pkt.getD 14 0 &&& 0x0f).toNat
      ∧ pkt.getD 23 0 = 17
      ∧ (readBe16 (pkt.drop (14 + (pkt.getD 14 0 &&& 0x0f).toNat * 4)) 2 = SERVER_POST_TYPE.toNat
        ∨ readBe16 (pkt.drop (14 + (pkt.getD 14 0 &&& 0x0f).toNat * 4)) 2 = CLIENT_POST_TYPE.toNat)
      ∧ IsLockPost (udpPayload pkt))
    ⟨fun ⟨h₁, h₂, h₃, h₄, h₅, h₆⟩ => ⟨h₁, h₂, h₃, h₄, h₅, h₆⟩, fun h => ⟨h.1, h.2, h.3, h.4, h.5, h.6⟩⟩

/-- The lock packet in a frame, if there is one. -/
def wellFormedPost (pkt : List Byte) : Option (List Byte) :=
  if IsLockFrame pkt then some (udpPayload pkt) else none

/-- A post is not shorter than its headers. -/
lemma length_of_readPost {post : List Byte} {r : RawHdr × List Byte} (h : readPost post = some r) :
    17 ≤ post.length ∧ post.getD 0 0 = r.1.type := by
  unfold readPost at h
  split at h
  · cases h
    simp
  · cases h

/-- **Every lock packet is accepted**, as it is. -/
lemma lockPost_of_wellFormed {pkt : List Byte} (h : IsLockFrame pkt) :
    lockPost pkt = some (udpPayload pkt) := by
  obtain ⟨r, hr, hlo, hhi, -⟩ := h.post
  obtain ⟨hlen, htype⟩ := length_of_readPost hr
  have hihl := h.ihl
  rw [udpPayload, List.length_drop] at hlen
  have haccept : acceptFrame pkt = some (udpPayload pkt) := by
    have hfirst : (pkt.drop 14).getD 0 0 = pkt.getD 14 0 := by
      simp [List.getD_eq_getElem?_getD]
    rw [acceptFrame, if_neg (by omega)]
    simp only [hfirst, List.drop_drop]
    rw [if_neg (not_not_intro h.version), if_neg (by omega), if_neg, udpPayload]
    rintro ⟨hs, hc⟩
    exact h.port.elim hs hc
  obtain ⟨t, rest, hpost⟩ : ∃ t rest, udpPayload pkt = t :: rest := by
    cases hp : udpPayload pkt with
    | nil =>
        rw [hp] at hr
        cases hr
    | cons t rest => exact ⟨t, rest, rfl⟩
  rw [hpost] at htype
  have ht : t = r.1.type := htype
  rw [lockPost, haccept, Option.bind_some, hpost, dispatchPayload, ht, if_neg, if_pos]
  · simp [hasDispatcher, hlo, hhi]
  · simp only [NUM_POST_TYPES]
    omega

namespace Capture

open Runs

/-! ## The files and the poll -/

/-- `veth-switch_out.pcap`, `veth-h1_out.pcap` and `veth-h2_out.pcap`. -/
inductive PcapFile where
  | vethSwitch
  | vethH1
  | vethH2
  deriving DecidableEq, Repr

/-- `names`, in the order in which the files are read. -/
def pcapNames : List PcapFile := [.vethSwitch, .vethH1, .vethH2]

/-- The packets of each file; `none` if it does not exist. -/
abbrev Files := PcapFile → Option (List (List Byte))

/-- The packets of a file. -/
def packets (files : Files) (f : PcapFile) : List (List Byte) := (files f).getD []

/-- What `ftell` returns at the end of a file: a header, and another one for each packet.  A file
that cannot be opened does not count. -/
def pcapSize : Option (List (List Byte)) → ℕ
  | none => 0
  | some pkts => 24 + (pkts.map fun p => 16 + p.length).sum

/-- `sum`, in `total_pcap_bytes`. -/
def total (size : PcapFile → ℕ) : ℕ := (pcapNames.map size).sum

/-- Where `net_poll_packets` is. -/
inductive Poll where
  /-- It is not running. -/
  | idle
  /-- In `total_pcap_bytes`: the files to come, and `sum`. -/
  | measuring (todo : List PcapFile) (sum : ℕ)
  /-- Between two calls of `scan_pcap_file`: the files to come. -/
  | scanning (todo : List PcapFile)
  /-- In `scan_pcap_file`: the packet that is read next, the `int`s `index` and `skip`, and the
  files to come. -/
  | reading (f : PcapFile) (pos : ℕ) (index skip : BitVec 32) (todo : List PcapFile)
  deriving DecidableEq, Repr

/-- The files, the variables of `bmv2_net.cc`, and what was dispatched.  `appended` and `fresh` are
there for the statements only. -/
structure State where
  files : Files
  /-- `g_pcap_bytes_before`. -/
  bytesBefore : ℕ
  /-- `g_pcap_packets_done`. -/
  packetsDone : PcapFile → BitVec 32
  poll : Poll
  /-- The lock packets that were dispatched, each with the file that it is from. -/
  dispatched : List (PcapFile × List Byte)
  /-- What was appended to each file since `bmv2_net_configure`. -/
  appended : PcapFile → List (List Byte)
  /-- Nothing was appended since `net_poll_packets` was called last. -/
  fresh : Bool

/-- `bmv2_net_configure`, for a directory with these files. -/
def State.init (files : Files) : State where
  files := files
  bytesBefore := total fun f => pcapSize (files f)
  packetsDone := fun _ => 0
  poll := .idle
  dispatched := []
  appended := fun _ => []
  fresh := false

inductive Event where
  /-- The switch appends a packet. -/
  | append (f : PcapFile) (pkt : List Byte)
  /-- `net_poll_packets` is called. -/
  | call
  /-- It goes on. -/
  | run

/-- `net_poll_packets` takes one step. -/
def runPoll (s : State) : Option State :=
  match s.poll with
  | .idle => none
  | .measuring (f :: todo) sum =>
      some { s with poll := .measuring todo (sum + pcapSize (s.files f)) }
  | .measuring [] sum =>
      if sum ≤ s.bytesBefore then some { s with poll := .idle }
      else some { s with bytesBefore := sum, poll := .scanning pcapNames }
  | .scanning [] => some { s with poll := .idle }
  | .scanning (f :: todo) =>
      match s.files f with
      | none => some { s with poll := .scanning todo }
      | some _ => some { s with poll := .reading f 0 0 (s.packetsDone f) todo }
  | .reading f pos index skip todo =>
      match (packets s.files f)[pos]? with
      | none =>
          some { s with
            packetsDone := Function.update s.packetsDone f index, poll := .scanning todo }
      | some pkt =>
          let s := { s with poll := .reading f (pos + 1) (index + 1) skip todo }
          if index.slt skip then some s
          else some { s with
            dispatched := s.dispatched ++ (lockPost pkt).toList.map fun p => (f, p) }

def step (s : State) : Event → Option State
  | .append f pkt =>
      some { s with
        files := Function.update s.files f (some (packets s.files f ++ [pkt]))
        appended := Function.update s.appended f (s.appended f ++ [pkt])
        fresh := false }
  | .call =>
      if s.poll = .idle then some { s with poll := .measuring pcapNames 0, fresh := true } else none
  | .run => runPoll s

/-- The packets of a file can be counted by an `int`. -/
def FitsInt (s : State) : Event → Prop
  | .append f _ => (packets s.files f).length + 1 < 2 ^ 31
  | _ => True

/-! ## Exactly once -/

/-- The lock packets dispatched from a file. -/
def State.dispatchedFrom (s : State) (f : PcapFile) : List (List Byte) :=
  (s.dispatched.filter (·.1 = f)).map (·.2)

/-- The lock packets among these. -/
def wellFormedPosts (pkts : List (List Byte)) : List (List Byte) := pkts.filterMap wellFormedPost

/-- What is dispatched of these. -/
def acceptedPosts (pkts : List (List Byte)) : List (List Byte) := pkts.filterMap lockPost

/-- What was dispatched are the lock packets that were appended, each once and in the order of the
file. -/
def DispatchedOnce (s : State) : Prop := ∀ f, s.dispatchedFrom f = wellFormedPosts (s.appended f)

/-- Every frame among these that is dispatched has a lock packet. -/
def OnlyLockPackets (pkts : List (List Byte)) : Prop :=
  ∀ pkt ∈ pkts, lockPost pkt ≠ none → IsLockFrame pkt

/-- Nothing that is a lock packet is left out. -/
lemma wellFormedPosts_sublist (pkts : List (List Byte)) :
    (wellFormedPosts pkts).Sublist (acceptedPosts pkts) := by
  induction pkts with
  | nil => exact List.Sublist.refl _
  | cons pkt pkts ih =>
      rw [wellFormedPosts, acceptedPosts, List.filterMap_cons, List.filterMap_cons]
      by_cases hwf : IsLockFrame pkt
      · rw [wellFormedPost, if_pos hwf, lockPost_of_wellFormed hwf]
        exact ih.cons_cons _
      · rw [wellFormedPost, if_neg hwf]
        cases lockPost pkt with
        | none => exact ih
        | some post => exact ih.cons post

/-- What is dispatched are the lock packets, exactly if nothing else is dispatched. -/
lemma acceptedPosts_eq_iff (pkts : List (List Byte)) :
    acceptedPosts pkts = wellFormedPosts pkts ↔ OnlyLockPackets pkts := by
  induction pkts with
  | nil => simp [acceptedPosts, wellFormedPosts, OnlyLockPackets]
  | cons pkt pkts ih =>
      rw [OnlyLockPackets, List.forall_mem_cons, ← OnlyLockPackets, ← ih, wellFormedPosts,
        acceptedPosts, List.filterMap_cons, List.filterMap_cons]
      by_cases hwf : IsLockFrame pkt
      · rw [wellFormedPost, if_pos hwf, lockPost_of_wellFormed hwf]
        simp [hwf, acceptedPosts, wellFormedPosts]
      · rw [wellFormedPost, if_neg hwf]
        cases hl : lockPost pkt with
        | none => simp [acceptedPosts, wellFormedPosts]
        | some post =>
            -- one more than there are lock packets
            have hle := (wellFormedPosts_sublist pkts).length_le
            refine iff_of_false (fun heq => ?_) (fun h => hwf (h.1 (by simp)))
            have hlen := congrArg List.length heq
            simp only [List.length_cons] at hlen
            rw [wellFormedPosts, acceptedPosts] at hle
            omega

/-! ## The two accounts -/

/-- How many packets of a file have been read, counting the ones of the scan under way. -/
def State.scanned (s : State) (f : PcapFile) : ℕ :=
  match s.poll with
  | .reading g pos _ skip _ => if f = g then max pos skip.toNat else (s.packetsDone f).toNat
  | _ => (s.packetsDone f).toNat

/-- The size of a file. -/
def State.size (s : State) (f : PcapFile) : ℕ := pcapSize (s.files f)

/-- The size of what has been read of a file. -/
def State.scannedSize (s : State) (f : PcapFile) : ℕ :=
  pcapSize ((s.files f).map (List.take (s.scanned f)))

/-- Nothing was appended. -/
def State.Untouched (s : State) : Prop := ∀ f, s.appended f = []

/-- No file has been looked into yet. -/
structure Unscanned (files : Files) (s : State) : Prop where
  done : ∀ f, s.packetsDone f = 0
  dispatched : s.dispatched = []
  before : s.bytesBefore = total fun f => pcapSize (files f)

/-- What the last measurement counted has been read. -/
def Covered (s : State) : Prop := s.bytesBefore ≤ total s.scannedSize

/-- Everything has been read. -/
def AllScanned (s : State) : Prop := ∀ f, s.scanned f = (packets s.files f).length

/-- The files are read in order, and `done` comes before `todo`. -/
def Split (done todo : List PcapFile) : Prop := done ++ todo = pcapNames

/-- In the middle of a scan: `measured` is what each file had when its size was taken. -/
structure Scanning (s : State) (done todo : List PcapFile) (measured : PcapFile → ℕ) : Prop where
  split : Split done todo
  before : s.bytesBefore = total measured
  read : ∀ f ∈ done, measured f ≤ s.scannedSize f
  unread : ∀ f ∈ todo, measured f ≤ s.size f
  fresh : s.fresh = true → ∀ f ∈ done, s.scanned f = (packets s.files f).length
  touched : ¬ s.Untouched

/-- What holds where the poll is. -/
def PollInv (files : Files) (s : State) : Prop :=
  match s.poll with
  | .idle => (Unscanned files s ∨ Covered s) ∧ (s.Untouched → Unscanned files s)
      ∧ (s.fresh = true → AllScanned s ∨ Unscanned files s ∧ s.Untouched)
  | .measuring todo sum => (Unscanned files s ∨ Covered s) ∧ (s.Untouched → Unscanned files s)
      ∧ ∃ done measured, Split done todo ∧ sum = (done.map measured).sum
        ∧ (∀ f ∈ done, measured f ≤ s.size f)
        ∧ (s.fresh = true → ∀ f ∈ done, measured f = s.size f)
  | .scanning todo => ∃ done measured, Scanning s done todo measured
  | .reading f pos index skip todo => (∃ done measured, Scanning s done (f :: todo) measured)
      ∧ index = BitVec.ofNat 32 pos ∧ skip = s.packetsDone f ∧ pos ≤ (packets s.files f).length
      ∧ s.files f ≠ none

/-- The invariant of all runs. -/
structure Inv (files : Files) (s : State) : Prop where
  packets_eq : ∀ f, packets s.files f = packets files f ++ s.appended f
  exists_iff : ∀ f, s.files f = none ↔ files f = none ∧ s.appended f = []
  short : ∀ f, (packets s.files f).length < 2 ^ 31
  scanned_le : ∀ f, s.scanned f ≤ (packets s.files f).length
  dispatched : ∀ f, s.dispatchedFrom f = acceptedPosts ((packets s.files f).take (s.scanned f))
  poll : PollInv files s

/-! ## Sizes -/

@[simp] lemma total_eq (m : PcapFile → ℕ) :
    total m = m .vethSwitch + (m .vethH1 + m .vethH2) := by
  simp [total, pcapNames]

lemma total_mono {m m' : PcapFile → ℕ} (h : ∀ f, m f ≤ m' f) : total m ≤ total m' := by
  have h₀ := h .vethSwitch
  have h₁ := h .vethH1
  have h₂ := h .vethH2
  simp only [total_eq]
  omega

/-- If the sums agree, so do the summands. -/
lemma eq_of_total_le {m m' : PcapFile → ℕ} (h : ∀ f, m f ≤ m' f) (ht : total m' ≤ total m)
    (f : PcapFile) :
    m f = m' f := by
  have h₀ := h .vethSwitch
  have h₁ := h .vethH1
  have h₂ := h .vethH2
  simp only [total_eq] at ht
  cases f <;> omega

/-- Of a file, more packets are more bytes. -/
lemma pcapSize_take_le (file : Option (List (List Byte))) (n : ℕ) :
    pcapSize (file.map (List.take n)) ≤ pcapSize file := by
  cases file with
  | none => exact le_rfl
  | some pkts =>
      have hsub : ((pkts.take n).map fun p => 16 + p.length).Sublist
          (pkts.map fun p => 16 + p.length) :=
        (List.take_sublist n pkts).map _
      exact Nat.add_le_add_left (hsub.sum_le_sum fun _ _ => Nat.zero_le _) 24

/-- If the first packets have the size of all of them, they are all of them. -/
lemma length_le_of_pcapSize_take {file : Option (List (List Byte))} {n : ℕ}
    (h : pcapSize (file.map (List.take n)) = pcapSize file) : (file.getD []).length ≤ n := by
  cases file with
  | none => exact Nat.zero_le _
  | some pkts =>
      by_contra hlt
      have hdrop : pkts.drop n ≠ [] := by
        simpa [List.drop_eq_nil_iff] using hlt
      obtain ⟨p, rest, hp⟩ := List.exists_cons_of_ne_nil hdrop
      have hsplit : pkts = pkts.take n ++ p :: rest := by rw [← hp, List.take_append_drop]
      have hsum : (pkts.map fun p => 16 + p.length).sum
          = ((pkts.take n).map fun p => 16 + p.length).sum
            + ((16 + p.length) + (rest.map fun p => 16 + p.length).sum) := by
        conv_lhs => rw [hsplit]
        simp
      simp only [Option.map_some, pcapSize] at h
      omega

/-- A file with a packet more. -/
lemma pcapSize_append (file : Option (List (List Byte))) (pkt : List Byte) :
    pcapSize file < pcapSize (some (file.getD [] ++ [pkt])) := by
  cases file with
  | none => simp [pcapSize]
  | some pkts =>
      simp [pcapSize]

lemma scannedSize_le_size (s : State) (f : PcapFile) : s.scannedSize f ≤ s.size f :=
  pcapSize_take_le _ _

lemma scannedSize_of_scanned {s : State} {f : PcapFile}
    (h : (packets s.files f).length ≤ s.scanned f) :
    s.scannedSize f = s.size f := by
  rw [State.scannedSize, State.size]
  cases hf : s.files f with
  | none => rfl
  | some pkts =>
      have hlen : pkts.length ≤ s.scanned f := by simpa [packets, hf] using h
      rw [Option.map_some, List.take_of_length_le hlen]

/-! ## The steps -/

section Append

variable {files : Files} {s : State} (f : PcapFile) (pkt : List Byte)

/-- The state with a packet more in a file. -/
def State.append (s : State) (f : PcapFile) (pkt : List Byte) : State :=
  { s with
    files := Function.update s.files f (some (packets s.files f ++ [pkt]))
    appended := Function.update s.appended f (s.appended f ++ [pkt])
    fresh := false }

lemma scanned_append : (s.append f pkt).scanned = s.scanned := rfl

/-- The packets of a file, after one was appended. -/
lemma packets_append (g : PcapFile) : packets (s.append f pkt).files g
    = packets s.files g ++ if g = f then [pkt] else [] := by
  by_cases hg : g = f
  · subst hg
    simp [packets, State.append]
  · simp [packets, State.append, hg]

lemma size_append_le (g : PcapFile) : s.size g ≤ (s.append f pkt).size g := by
  by_cases hg : g = f
  · subst hg
    simpa [State.size, State.append, packets] using (pcapSize_append (s.files g) pkt).le
  · simp [State.size, State.append, hg]

lemma take_packets_append (h : ∀ g, s.scanned g ≤ (packets s.files g).length) (g : PcapFile) :
    (packets (s.append f pkt).files g).take (s.scanned g)
      = (packets s.files g).take (s.scanned g) := by
  rw [packets_append, List.take_append_of_le_length (h g)]

lemma scannedSize_append_le (h : ∀ g, s.scanned g ≤ (packets s.files g).length) (g : PcapFile) :
    s.scannedSize g ≤ (s.append f pkt).scannedSize g := by
  have htake := take_packets_append f pkt h g
  rw [State.scannedSize, State.scannedSize, scanned_append]
  by_cases hg : g = f
  · subst hg
    cases hs : s.files g with
    | none => exact Nat.zero_le _
    | some pkts =>
        have hnew : (s.append g pkt).files g = some (pkts ++ [pkt]) := by
          simp [State.append, packets, hs]
        have hlen : s.scanned g ≤ pkts.length := by simpa [packets, hs] using h g
        rw [hnew, Option.map_some, Option.map_some, List.take_append_of_le_length hlen]
  · simp [State.append, hg]

lemma not_untouched_append : ¬ (s.append f pkt).Untouched := by
  intro h
  simpa [State.append] using h f

lemma unscanned_append (h : Unscanned files s) : Unscanned files (s.append f pkt) :=
  ⟨h.done, h.dispatched, h.before⟩

lemma covered_append (h : ∀ g, s.scanned g ≤ (packets s.files g).length) (hc : Covered s) :
    Covered (s.append f pkt) :=
  hc.trans (total_mono (scannedSize_append_le f pkt h))

lemma scanning_append (h : ∀ g, s.scanned g ≤ (packets s.files g).length)
    {done todo : List PcapFile} {measured : PcapFile → ℕ} (hs : Scanning s done todo measured) :
    Scanning (s.append f pkt) done todo measured where
  split := hs.split
  before := hs.before
  read := fun g hg => (hs.read g hg).trans (scannedSize_append_le f pkt h g)
  unread := fun g hg => (hs.unread g hg).trans (size_append_le f pkt g)
  fresh := fun hf => absurd hf (by simp [State.append])
  touched := not_untouched_append f pkt

/-- Wherever the poll is, an append leaves it there: files grow, and what was measured or read stays
so. -/
lemma PollInv.append (hold : PollInv files s) (h : ∀ g, s.scanned g ≤ (packets s.files g).length) :
    PollInv files (s.append f pkt) := by
  rw [PollInv] at hold ⊢
  have hpoll : (s.append f pkt).poll = s.poll := rfl
  rw [hpoll]
  have hstale : ¬ (s.append f pkt).fresh = true := by simp [State.append]
  have hphase : Unscanned files s ∨ Covered s →
      Unscanned files (s.append f pkt) ∨ Covered (s.append f pkt) :=
    Or.imp (unscanned_append f pkt) (covered_append f pkt h)
  cases hp : s.poll with
  | idle =>
      rw [hp] at hold
      exact ⟨hphase hold.1, fun hu => absurd hu (not_untouched_append f pkt),
        fun hf => absurd hf hstale⟩
  | measuring todo sum =>
      rw [hp] at hold
      obtain ⟨hph, -, done, measured, hsplit, hsum, hle, -⟩ := hold
      exact ⟨hphase hph, fun hu => absurd hu (not_untouched_append f pkt), done, measured, hsplit,
        hsum, fun g hg => (hle g hg).trans (size_append_le f pkt g), fun hf => absurd hf hstale⟩
  | scanning todo =>
      rw [hp] at hold
      obtain ⟨done, measured, hs⟩ := hold
      exact ⟨done, measured, scanning_append f pkt h hs⟩
  | reading g pos index skip todo =>
      rw [hp] at hold
      obtain ⟨⟨done, measured, hs⟩, hindex, hskip, hpos, hfile⟩ := hold
      refine ⟨⟨done, measured, scanning_append f pkt h hs⟩, hindex, hskip, ?_, ?_⟩
      · rw [packets_append, List.length_append]
        exact hpos.trans (Nat.le_add_right _ _)
      · by_cases hg : g = f
        · subst hg
          simp [State.append]
        · simpa [State.append, hg] using hfile

/-- Appending a packet keeps the invariant. -/
lemma Inv.append (h : Inv files s) (hfit : (packets s.files f).length + 1 < 2 ^ 31) :
    Inv files (s.append f pkt) where
  packets_eq := by
    intro g
    rw [packets_append, h.packets_eq]
    by_cases hg : g = f
    · subst hg
      simp [State.append]
    · simp [State.append, hg]
  exists_iff := by
    intro g
    by_cases hg : g = f
    · subst hg
      simp [State.append]
    · simpa [State.append, hg] using h.exists_iff g
  short := by
    intro g
    rw [packets_append, List.length_append]
    by_cases hg : g = f
    · subst hg
      simpa using hfit
    · simpa [hg] using h.short g
  scanned_le := by
    intro g
    rw [scanned_append, packets_append, List.length_append]
    exact (h.scanned_le g).trans (Nat.le_add_right _ _)
  dispatched := by
    intro g
    rw [scanned_append, take_packets_append f pkt h.scanned_le]
    exact h.dispatched g
  poll := h.poll.append f pkt h.scanned_le

end Append

section Run

variable {files : Files} {s s' : State}

/-- Outside of a scan, what has been read is what is recorded. -/
lemma scanned_of_idle (h : s.poll = .idle) : s.scanned = fun f => (s.packetsDone f).toNat := by
  funext f
  rw [State.scanned, h]

lemma scanned_of_measuring {todo : List PcapFile} {sum : ℕ} (h : s.poll = .measuring todo sum) :
    s.scanned = fun f => (s.packetsDone f).toNat := by
  funext f
  rw [State.scanned, h]

lemma scanned_of_scanning {todo : List PcapFile} (h : s.poll = .scanning todo) :
    s.scanned = fun f => (s.packetsDone f).toNat := by
  funext f
  rw [State.scanned, h]

lemma scanned_of_reading {g : PcapFile} {pos : ℕ} {index skip : BitVec 32} {todo : List PcapFile}
    (h : s.poll = .reading g pos index skip todo) :
    s.scanned = fun f => if f = g then max pos skip.toNat else (s.packetsDone f).toNat := by
  funext f
  rw [State.scanned, h]

/-- A step that reads no packet. -/
lemma Inv.of_scanned_eq (h : Inv files s) (hfiles : s'.files = s.files)
    (happended : s'.appended = s.appended) (hdispatched : s'.dispatched = s.dispatched)
    (hscanned : s'.scanned = s.scanned) (hpoll : PollInv files s') : Inv files s' where
  packets_eq := by
    rw [hfiles, happended]
    exact h.packets_eq
  exists_iff := by
    rw [hfiles, happended]
    exact h.exists_iff
  short := by
    rw [hfiles]
    exact h.short
  scanned_le := by
    rw [hfiles, hscanned]
    exact h.scanned_le
  dispatched := by
    intro f
    rw [State.dispatchedFrom, hdispatched, hfiles, hscanned]
    exact h.dispatched f
  poll := hpoll

lemma scannedSize_congr (hfiles : s'.files = s.files) (hscanned : s'.scanned = s.scanned) :
    s'.scannedSize = s.scannedSize := by
  funext f
  rw [State.scannedSize, State.scannedSize, hfiles, hscanned]

lemma Unscanned.congr (h : Unscanned files s) (hdone : s'.packetsDone = s.packetsDone)
    (hdispatched : s'.dispatched = s.dispatched) (hbefore : s'.bytesBefore = s.bytesBefore) :
    Unscanned files s' where
  done := by
    rw [hdone]
    exact h.done
  dispatched := hdispatched.trans h.dispatched
  before := hbefore.trans h.before

lemma phase_congr (h : Unscanned files s ∨ Covered s) (hfiles : s'.files = s.files)
    (hdone : s'.packetsDone = s.packetsDone) (hdispatched : s'.dispatched = s.dispatched)
    (hbefore : s'.bytesBefore = s.bytesBefore) (hscanned : s'.scanned = s.scanned) :
    Unscanned files s' ∨ Covered s' := by
  rcases h with hu | hc
  · exact .inl (hu.congr hdone hdispatched hbefore)
  · refine .inr ?_
    rw [Covered, scannedSize_congr hfiles hscanned, hbefore]
    exact hc

/-- Files do not shrink. -/
lemma Inv.size_le (h : Inv files s) (f : PcapFile) : pcapSize (files f) ≤ s.size f := by
  have hpackets := h.packets_eq f
  have hexists := h.exists_iff f
  rw [State.size]
  cases h₀ : files f with
  | none => exact Nat.zero_le _
  | some pkts₀ =>
      cases hf : s.files f with
      | none => simp [h₀, hf] at hexists
      | some pkts =>
          simp only [packets, h₀, hf, Option.getD_some] at hpackets
          simp [pcapSize, hpackets]

/-- A file that has kept its size was not appended to. -/
lemma Inv.appended_of_size (h : Inv files s) {f : PcapFile} (hsize : pcapSize (files f) = s.size f) :
    s.appended f = [] := by
  have hpackets := h.packets_eq f
  have hexists := h.exists_iff f
  rw [State.size] at hsize
  cases hf : s.files f with
  | none => exact (hexists.1 hf).2
  | some pkts =>
      cases h₀ : files f with
      | none =>
          rw [hf, h₀] at hsize
          simp only [pcapSize] at hsize
          omega
      | some pkts₀ =>
          simp only [packets, h₀, hf, Option.getD_some] at hpackets
          rw [hf, h₀, hpackets] at hsize
          cases happ : s.appended f with
          | nil => rfl
          | cons p rest => simp [pcapSize, happ] at hsize

lemma Inv.size_of_untouched (h : Inv files s) (hu : s.Untouched) (f : PcapFile) :
    s.size f = pcapSize (files f) := by
  have hpackets := h.packets_eq f
  have hexists := h.exists_iff f
  rw [State.size]
  rw [hu f, List.append_nil] at hpackets
  cases hf : s.files f with
  | none =>
      rw [(hexists.1 hf).1]
  | some pkts =>
      cases h₀ : files f with
      | none => simp [hf, h₀, hu f] at hexists
      | some pkts₀ =>
          simp only [packets, h₀, hf, Option.getD_some] at hpackets
          rw [hpackets]

lemma allScanned_of_total (h : Inv files s) (ht : total s.size ≤ total s.scannedSize) :
    AllScanned s := by
  intro f
  have hsize : s.scannedSize f = s.size f := eq_of_total_le (scannedSize_le_size s) ht f
  exact le_antisymm (h.scanned_le f) (length_le_of_pcapSize_take hsize)

/-- `net_poll_packets` is called. -/
lemma Inv.call (h : Inv files s) (hp : s.poll = .idle) :
    Inv files { s with poll := .measuring pcapNames 0, fresh := true } := by
  have hsc := scanned_of_idle hp
  refine h.of_scanned_eq rfl rfl rfl hsc.symm ?_
  have hold := h.poll
  rw [PollInv, hp] at hold
  exact ⟨phase_congr hold.1 rfl rfl rfl rfl hsc.symm, fun hu => (hold.2.1 hu).congr rfl rfl rfl,
    [], fun _ => 0, rfl, rfl, by simp, by simp⟩

/-- The size of a file is added. -/
lemma Inv.measure (h : Inv files s) {f : PcapFile} {todo : List PcapFile} {sum : ℕ}
    (hp : s.poll = .measuring (f :: todo) sum) :
    Inv files { s with poll := .measuring todo (sum + pcapSize (s.files f)) } := by
  have hsc := scanned_of_measuring hp
  refine h.of_scanned_eq rfl rfl rfl hsc.symm ?_
  have hold := h.poll
  rw [PollInv, hp] at hold
  obtain ⟨hphase, huntouched, done, measured, hsplit, hsum, hle, hfresh⟩ := hold
  refine ⟨phase_congr hphase rfl rfl rfl rfl hsc.symm, fun hu => (huntouched hu).congr rfl rfl rfl,
    done ++ [f], Function.update measured f (s.size f), ?_, ?_, ?_, ?_⟩
  · rw [Split, List.append_assoc]
    exact hsplit
  · have hnot : f ∉ done := by
      have hnodup : (done ++ f :: todo).Nodup := by
        rw [hsplit]
        decide
      intro hmem
      exact List.disjoint_of_nodup_append hnodup hmem List.mem_cons_self
    have hdone : done.map (Function.update measured f (s.size f)) = done.map measured := by
      apply List.map_congr_left
      intro g hg
      apply Function.update_of_ne
      rintro rfl
      exact hnot hg
    rw [List.map_append, hdone, hsum]
    simp [State.size]
  · intro g hg
    by_cases hgf : g = f
    · subst hgf
      simp [State.size]
    · rw [Function.update_of_ne hgf]
      have hmem : g ∈ done := by simpa [hgf] using hg
      exact hle g hmem
  · intro hf g hg
    by_cases hgf : g = f
    · subst hgf
      simp [State.size]
    · rw [Function.update_of_ne hgf]
      have hmem : g ∈ done := by simpa [hgf] using hg
      exact hfresh hf g hmem

/-- At the end of the list every file has been visited. -/
lemma Split.mem_done {done : List PcapFile} (h : Split done []) (f : PcapFile) : f ∈ done := by
  rw [Split, List.append_nil] at h
  rw [h]
  cases f <;> decide

/-- All sizes have been added. -/
lemma Inv.measured (h : Inv files s) {sum : ℕ} (hp : s.poll = .measuring [] sum) :
    ∃ measured, sum = total measured ∧ (∀ f, measured f ≤ s.size f)
      ∧ (s.fresh = true → ∀ f, measured f = s.size f) := by
  have hold := h.poll
  rw [PollInv, hp] at hold
  obtain ⟨-, -, done, measured, hsplit, hsum, hle, hfresh⟩ := hold
  have hall := hsplit.mem_done
  refine ⟨measured, ?_, fun f => hle f (hall f), fun hf f => hfresh hf f (hall f)⟩
  rw [Split, List.append_nil] at hsplit
  rw [hsum, hsplit, total]

/-- The files have not grown. -/
lemma Inv.notGrown (h : Inv files s) {sum : ℕ} (hp : s.poll = .measuring [] sum)
    (hle : sum ≤ s.bytesBefore) : Inv files { s with poll := .idle } := by
  have hsc := scanned_of_measuring hp
  refine h.of_scanned_eq rfl rfl rfl hsc.symm ?_
  obtain ⟨measured, hsum, -, hfresh⟩ := h.measured hp
  have hold := h.poll
  rw [PollInv, hp] at hold
  obtain ⟨hphase, huntouched, -⟩ := hold
  refine ⟨phase_congr hphase rfl rfl rfl rfl hsc.symm, fun hu => (huntouched hu).congr rfl rfl rfl, ?_⟩
  intro hf
  have hmeasured : total s.size = sum := by
    rw [hsum]
    exact congrArg total (funext fun f => (hfresh hf f).symm)
  rcases hphase with hu | hc
  · -- nothing has been read, and nothing is there that was not there at first
    refine .inr ⟨hu.congr rfl rfl rfl, fun f => ?_⟩
    refine h.appended_of_size (eq_of_total_le h.size_le ?_ f)
    exact hmeasured.trans_le (hle.trans_eq hu.before)
  · refine .inl ?_
    have hall : AllScanned s := allScanned_of_total h (hmeasured.trans_le (hle.trans hc))
    intro f
    exact (congrFun hsc f).symm.trans (hall f)

/-- The files have grown. -/
lemma Inv.grown (h : Inv files s) {sum : ℕ} (hp : s.poll = .measuring [] sum)
    (hlt : ¬ sum ≤ s.bytesBefore) :
    Inv files { s with bytesBefore := sum, poll := .scanning pcapNames } := by
  have hsc := scanned_of_measuring hp
  refine h.of_scanned_eq rfl rfl rfl hsc.symm ?_
  obtain ⟨measured, hsum, hle, -⟩ := h.measured hp
  have hold := h.poll
  rw [PollInv, hp] at hold
  exact ⟨[], measured,
    { split := rfl
      before := hsum
      read := by simp
      unread := fun f _ => hle f
      fresh := by simp
      touched := by
        intro hu
        have hbefore := (hold.2.1 hu).before
        have hsize : total s.size = total fun f => pcapSize (files f) :=
          congrArg total (funext (h.size_of_untouched hu))
        have htotal := total_mono hle
        omega }⟩

/-- A scan goes on to the next file, with `f` read to its end. -/
lemma Scanning.next {done todo : List PcapFile} {f : PcapFile} {measured : PcapFile → ℕ}
    (hs : Scanning s done (f :: todo) measured) (hfiles : s'.files = s.files)
    (hbefore : s'.bytesBefore = s.bytesBefore) (happended : s'.appended = s.appended)
    (hfresh : s'.fresh = s.fresh) (hscanned : s'.scanned = s.scanned)
    (hend : s.scanned f = (packets s.files f).length) :
    Scanning s' (done ++ [f]) todo measured where
  split := by
    rw [Split, List.append_assoc]
    exact hs.split
  before := hbefore.trans hs.before
  read := by
    rw [scannedSize_congr hfiles hscanned]
    intro g hg
    rcases List.mem_append.1 hg with hg | hg
    · exact hs.read g hg
    · rw [List.mem_singleton.1 hg, scannedSize_of_scanned hend.ge]
      exact hs.unread f List.mem_cons_self
  unread := by
    intro g hg
    rw [State.size, hfiles]
    exact hs.unread g (List.mem_cons_of_mem _ hg)
  fresh := by
    rw [hfresh, hscanned, hfiles]
    intro hf g hg
    rcases List.mem_append.1 hg with hg | hg
    · exact hs.fresh hf g hg
    · rw [List.mem_singleton.1 hg]
      exact hend
  touched := by
    rw [State.Untouched, happended]
    exact hs.touched

/-- A scan stays at its file, and may have read a packet more. -/
lemma Scanning.stay {done todo : List PcapFile} {measured : PcapFile → ℕ}
    (hs : Scanning s done todo measured) (hfiles : s'.files = s.files)
    (hbefore : s'.bytesBefore = s.bytesBefore) (happended : s'.appended = s.appended)
    (hfresh : s'.fresh = s.fresh) (hscanned : ∀ f, s.scanned f ≤ s'.scanned f)
    (hle : ∀ f, s'.scanned f ≤ (packets s.files f).length) : Scanning s' done todo measured where
  split := hs.split
  before := hbefore.trans hs.before
  read := by
    intro g hg
    refine (hs.read g hg).trans ?_
    have htake : ((s'.files g).map (List.take (s'.scanned g))).map (List.take (s.scanned g))
        = (s.files g).map (List.take (s.scanned g)) := by
      rw [hfiles, Option.map_map]
      congr 1
      funext pkts
      simp [List.take_take, min_eq_left (hscanned g)]
    rw [State.scannedSize, ← htake]
    exact pcapSize_take_le _ _
  unread := by
    intro g hg
    rw [State.size, hfiles]
    exact hs.unread g hg
  fresh := by
    rw [hfresh, hfiles]
    intro hf g hg
    exact le_antisymm (hle g) ((hs.fresh hf g hg).symm.trans_le (hscanned g))
  touched := by
    rw [State.Untouched, happended]
    exact hs.touched

/-- All files have been read. -/
lemma Inv.scanEnd (h : Inv files s) (hp : s.poll = .scanning []) :
    Inv files { s with poll := .idle } := by
  have hsc := scanned_of_scanning hp
  refine h.of_scanned_eq rfl rfl rfl hsc.symm ?_
  have hold := h.poll
  rw [PollInv, hp] at hold
  obtain ⟨done, measured, hs⟩ := hold
  have hall := hs.split.mem_done
  have hcovered : Covered s := hs.before.trans_le (total_mono fun f => hs.read f (hall f))
  refine ⟨phase_congr (.inr hcovered) rfl rfl rfl rfl hsc.symm, fun hu => absurd hu hs.touched, ?_⟩
  intro hf
  refine .inl fun f => ?_
  exact (congrFun hsc f).symm.trans (hs.fresh hf f (hall f))

/-- A file that does not exist. -/
lemma Inv.scanMissing (h : Inv files s) {f : PcapFile} {todo : List PcapFile}
    (hp : s.poll = .scanning (f :: todo)) (hf : s.files f = none) :
    Inv files { s with poll := .scanning todo } := by
  have hsc := scanned_of_scanning hp
  refine h.of_scanned_eq rfl rfl rfl hsc.symm ?_
  have hold := h.poll
  rw [PollInv, hp] at hold
  obtain ⟨done, measured, hs⟩ := hold
  have hend : s.scanned f = (packets s.files f).length := by
    have hle := h.scanned_le f
    simp only [packets, hf, Option.getD_none, List.length_nil, Nat.le_zero] at hle ⊢
    exact hle
  exact ⟨_, _, hs.next rfl rfl rfl rfl hsc.symm hend⟩

/-- `pcap_open_offline`. -/
lemma Inv.scanOpen (h : Inv files s) {f : PcapFile} {todo : List PcapFile}
    (hp : s.poll = .scanning (f :: todo)) (hf : s.files f ≠ none) :
    Inv files { s with poll := .reading f 0 0 (s.packetsDone f) todo } := by
  have hsc : State.scanned { s with poll := .reading f 0 0 (s.packetsDone f) todo } = s.scanned := by
    rw [scanned_of_scanning hp, scanned_of_reading rfl]
    funext g
    by_cases hg : g = f
    · simp [hg]
    · simp [hg]
  refine h.of_scanned_eq rfl rfl rfl hsc ?_
  have hold := h.poll
  rw [PollInv, hp] at hold
  obtain ⟨done, measured, hs⟩ := hold
  refine ⟨⟨done, measured, hs.stay rfl rfl rfl rfl (fun g => (congrFun hsc g).ge) ?_⟩, rfl, rfl,
    Nat.zero_le _, hf⟩
  intro g
  rw [hsc]
  exact h.scanned_le g

section Reading

variable {f : PcapFile} {pos : ℕ} {index skip : BitVec 32} {todo : List PcapFile}

/-- What the invariant says in the middle of a file. -/
lemma Inv.reading (h : Inv files s) (hp : s.poll = .reading f pos index skip todo) :
    (∃ done measured, Scanning s done (f :: todo) measured) ∧ index = BitVec.ofNat 32 pos
      ∧ pos ≤ (packets s.files f).length ∧ skip.toNat ≤ (packets s.files f).length
      ∧ s.scanned f = max pos skip.toNat ∧ index.toNat = pos := by
  have hold := h.poll
  rw [PollInv, hp] at hold
  obtain ⟨hs, hindex, -, hpos, -⟩ := hold
  have hscanned : s.scanned f = max pos skip.toNat := by
    rw [scanned_of_reading hp]
    simp
  have hle := h.scanned_le f
  have hshort := h.short f
  refine ⟨hs, hindex, hpos, ?_, hscanned, ?_⟩
  · omega
  · rw [hindex, BitVec.toNat_ofNat, Nat.mod_eq_of_lt (by omega)]

/-- The end of a file. -/
lemma Inv.readEnd (h : Inv files s) (hp : s.poll = .reading f pos index skip todo)
    (hend : (packets s.files f)[pos]? = none) :
    Inv files { s with
      packetsDone := Function.update s.packetsDone f index, poll := .scanning todo } := by
  obtain ⟨⟨done, measured, hs⟩, -, hpos, hskip, hscanned, hindex⟩ := h.reading hp
  have hlen : (packets s.files f).length ≤ pos := List.getElem?_eq_none_iff.1 hend
  have hsc : State.scanned { s with
      packetsDone := Function.update s.packetsDone f index, poll := .scanning todo } = s.scanned := by
    rw [scanned_of_reading hp, scanned_of_scanning rfl]
    funext g
    by_cases hg : g = f
    · subst hg
      simp only [Function.update_self, if_true, hindex]
      omega
    · simp [hg]
  refine h.of_scanned_eq rfl rfl rfl hsc ?_
  have hread : s.scanned f = (packets s.files f).length := by omega
  exact ⟨_, _, hs.next rfl rfl rfl rfl hsc hread⟩

/-- `index < skip`, as long as the packets can be counted. -/
lemma Inv.slt_iff (h : Inv files s) (hp : s.poll = .reading f pos index skip todo) :
    index.slt skip = true ↔ pos < skip.toNat := by
  obtain ⟨-, -, hpos, hskip, -, hindex⟩ := h.reading hp
  have hshort := h.short f
  rw [BitVec.slt_iff_toInt_lt, BitVec.toInt_eq_toNat_of_lt (by omega),
    BitVec.toInt_eq_toNat_of_lt (by omega)]
  omega

/-- A packet that has been read before. -/
lemma Inv.readSkip (h : Inv files s) (hp : s.poll = .reading f pos index skip todo) {pkt : List Byte}
    (hpkt : (packets s.files f)[pos]? = some pkt) (hslt : index.slt skip = true) :
    Inv files { s with poll := .reading f (pos + 1) (index + 1) skip todo } := by
  obtain ⟨⟨done, measured, hs⟩, hindex, hpos, hskip, hscanned, -⟩ := h.reading hp
  have hlt : pos < skip.toNat := (h.slt_iff hp).1 hslt
  have hsc : State.scanned { s with poll := .reading f (pos + 1) (index + 1) skip todo } = s.scanned := by
    rw [scanned_of_reading hp, scanned_of_reading rfl]
    funext g
    by_cases hg : g = f
    · simp only [hg, if_true]
      omega
    · simp [hg]
  refine h.of_scanned_eq rfl rfl rfl hsc ?_
  have hold := h.poll
  rw [PollInv, hp] at hold
  refine ⟨⟨done, measured, hs.stay rfl rfl rfl rfl (fun g => (congrFun hsc g).ge) ?_⟩, ?_,
    hold.2.2.1, ?_, hold.2.2.2.2⟩
  · intro g
    rw [hsc]
    exact h.scanned_le g
  · rw [hindex]
    exact (BitVec.ofNat_add pos 1).symm
  · exact (List.getElem?_eq_some_iff.1 hpkt).1

/-- What has been dispatched from a file, after a packet of `f` was read. -/
lemma dispatchedFrom_of_append {post : Option (List Byte)}
    (hd : s'.dispatched = s.dispatched ++ post.toList.map fun p => (f, p)) (g : PcapFile) :
    s'.dispatchedFrom g = s.dispatchedFrom g ++ if g = f then post.toList else [] := by
  rw [State.dispatchedFrom, State.dispatchedFrom, hd, List.filter_append, List.map_append]
  congr 1
  by_cases hg : g = f
  · subst hg
    cases post <;> simp
  · cases post <;> simp [hg, Ne.symm hg]

/-- The lock packets up to the one that was read. -/
lemma acceptedPosts_take_add_one {pkts : List (List Byte)} {pkt : List Byte}
    (hpkt : pkts[pos]? = some pkt) :
    acceptedPosts (pkts.take (pos + 1)) = acceptedPosts (pkts.take pos) ++ (lockPost pkt).toList := by
  rw [List.take_add_one, hpkt, acceptedPosts, acceptedPosts, List.filterMap_append]
  cases hl : lockPost pkt <;> simp [hl]

/-- A new packet. -/
lemma Inv.readNew (h : Inv files s) (hp : s.poll = .reading f pos index skip todo) {pkt : List Byte}
    (hpkt : (packets s.files f)[pos]? = some pkt) (hslt : ¬ index.slt skip = true) :
    Inv files { s with
      poll := .reading f (pos + 1) (index + 1) skip todo
      dispatched := s.dispatched ++ (lockPost pkt).toList.map fun p => (f, p) } := by
  obtain ⟨⟨done, measured, hs⟩, hindex, hpos, hskip, hscanned, -⟩ := h.reading hp
  have hge : skip.toNat ≤ pos := not_lt.1 fun hlt => hslt ((h.slt_iff hp).2 hlt)
  have hlt : pos < (packets s.files f).length := (List.getElem?_eq_some_iff.1 hpkt).1
  set s' : State := { s with
    poll := .reading f (pos + 1) (index + 1) skip todo
    dispatched := s.dispatched ++ (lockPost pkt).toList.map fun p => (f, p) } with hs'
  have hself : s'.scanned f = pos + 1 := by
    rw [scanned_of_reading (s := s') rfl]
    simp only [if_true]
    omega
  have hother : ∀ g, g ≠ f → s'.scanned g = s.scanned g := by
    intro g hg
    rw [scanned_of_reading hp, scanned_of_reading (s := s') rfl]
    simp [hg, hs']
  have hle : ∀ g, s'.scanned g ≤ (packets s.files g).length := by
    intro g
    by_cases hg : g = f
    · subst hg
      omega
    · rw [hother g hg]
      exact h.scanned_le g
  have hold := h.poll
  rw [PollInv, hp] at hold
  exact {
    packets_eq := h.packets_eq
    exists_iff := h.exists_iff
    short := h.short
    scanned_le := hle
    dispatched := by
      intro g
      have hfrom : s'.dispatchedFrom g
          = s.dispatchedFrom g ++ if g = f then (lockPost pkt).toList else [] :=
        dispatchedFrom_of_append rfl g
      rw [hfrom, h.dispatched g]
      by_cases hg : g = f
      · subst hg
        rw [if_pos rfl, hself, acceptedPosts_take_add_one hpkt, hscanned, Nat.max_eq_left hge]
      · rw [if_neg hg, hother g hg, List.append_nil]
    poll := by
      refine ⟨⟨done, measured, hs.stay rfl rfl rfl rfl ?_ hle⟩, ?_, hold.2.2.1, hlt, hold.2.2.2.2⟩
      · intro g
        by_cases hg : g = f
        · subst hg
          omega
        · exact (hother g hg).ge
      · rw [hindex]
        exact (BitVec.ofNat_add pos 1).symm }

end Reading

/-- One step of `net_poll_packets` keeps the invariant. -/
lemma Inv.runPoll (h : Inv files s) (hrun : runPoll s = some s') : Inv files s' := by
  rw [Capture.runPoll] at hrun
  split at hrun
  · cases hrun
  · next hp =>
      cases hrun
      exact h.measure hp
  · next hp =>
      split at hrun
      · next hle =>
          cases hrun
          exact h.notGrown hp hle
      · next hlt =>
          cases hrun
          exact h.grown hp hlt
  · next hp =>
      cases hrun
      exact h.scanEnd hp
  · next hp =>
      split at hrun
      · next hf =>
          cases hrun
          exact h.scanMissing hp hf
      · next hf =>
          cases hrun
          exact h.scanOpen hp (by simp [hf])
  · next hp =>
      split at hrun
      · next hend =>
          cases hrun
          exact h.readEnd hp hend
      · next hpkt =>
          split at hrun
          · next hslt =>
              cases hrun
              exact h.readSkip hp hpkt hslt
          · next hslt =>
              cases hrun
              exact h.readNew hp hpkt hslt

end Run

/-! ## Every run -/

lemma inv_init {files : Files} (hshort : ∀ f, (packets files f).length < 2 ^ 31) :
    Inv files (.init files) where
  packets_eq := fun f => (List.append_nil _).symm
  exists_iff := by simp [State.init]
  short := hshort
  scanned_le := fun f => Nat.zero_le _
  dispatched := fun f => rfl
  poll := ⟨.inl ⟨fun _ => rfl, rfl, rfl⟩, fun _ => ⟨fun _ => rfl, rfl, rfl⟩,
    fun hf => absurd hf Bool.false_ne_true⟩

lemma inv_step {files : Files} {s s' : State} {e : Event} (h : Inv files s) (hfit : FitsInt s e)
    (hstep : step s e = some s') : Inv files s' := by
  cases e with
  | append f pkt =>
      cases hstep
      exact h.append f pkt hfit
  | call =>
      simp only [step] at hstep
      split at hstep
      · next hp =>
          cases hstep
          exact h.call hp
      · cases hstep
  | run => exact h.runPoll hstep

lemma inv_reach {files : Files} (hshort : ∀ f, (packets files f).length < 2 ^ 31) {s : State}
    (h : Reach step FitsInt (.init files) s) : Inv files s :=
  h.invariant (inv_init hshort) fun _ _ _ hI hfit hstep => inv_step hI hfit hstep

/-- **When packets are dispatched exactly once.**  After a poll that was called when the last packet
had been appended, the packets dispatched are the lock packets appended exactly if nothing was
appended, or there was nothing in the files at `bmv2_net_configure` that is dispatched, and nothing
was appended that is dispatched without being a lock packet. -/
theorem dispatched_once_iff (files : Files) (hshort : ∀ f, (packets files f).length < 2 ^ 31)
    {s : State} (h : Reach step FitsInt (.init files) s) (hidle : s.poll = .idle)
    (hfresh : s.fresh = true) :
    DispatchedOnce s ↔ s.Untouched
      ∨ (∀ f, acceptedPosts (packets files f) = []) ∧ ∀ f, OnlyLockPackets (s.appended f) := by
  have hinv := inv_reach hshort h
  have hold := hinv.poll
  rw [PollInv, hidle] at hold
  obtain ⟨-, huntouched, hend⟩ := hold
  by_cases hu : s.Untouched
  · -- nothing was looked at
    have hnone : s.dispatched = [] := (huntouched hu).dispatched
    refine iff_of_true (fun f => ?_) (.inl hu)
    simp [State.dispatchedFrom, hnone, hu f, wellFormedPosts]
  · have hall : AllScanned s := (hend hfresh).resolve_right fun hn => hu hn.2
    have hdispatched : ∀ f, s.dispatchedFrom f
        = acceptedPosts (packets files f) ++ acceptedPosts (s.appended f) := by
      intro f
      rw [hinv.dispatched f, hall f, List.take_length, hinv.packets_eq f, acceptedPosts, acceptedPosts,
        acceptedPosts, List.filterMap_append]
    rw [or_iff_right hu]
    simp only [DispatchedOnce, hdispatched, ← acceptedPosts_eq_iff]
    constructor
    · intro hall
      have hnone : ∀ f, acceptedPosts (packets files f) = [] := by
        intro f
        have hlen := congrArg List.length (hall f)
        have hle := (wellFormedPosts_sublist (s.appended f)).length_le
        rw [List.length_append] at hlen
        exact List.length_eq_zero_iff.1 (by omega)
      refine ⟨hnone, fun f => ?_⟩
      have hf := hall f
      rwa [hnone f, List.nil_append] at hf
    · rintro ⟨hnone, hsame⟩ f
      rw [hnone f, List.nil_append, hsame f]

/-! ## Every poll returns -/

/-- How far `net_poll_packets` is from its end. -/
def Poll.toGo (files : Files) : Poll → ℕ
  | .idle => 0
  | .measuring todo _ =>
      todo.length + 1 + (1 + (pcapNames.map fun f => 2 + (packets files f).length).sum)
  | .scanning todo => 1 + (todo.map fun f => 2 + (packets files f).length).sum
  | .reading f pos _ _ todo =>
      (packets files f).length - pos + 1 + (1 + (todo.map fun f => 2 + (packets files f).length).sum)

lemma runPoll_toGo {s : State} (hp : s.poll ≠ .idle) :
    ∃ s', runPoll s = some s' ∧ s'.poll.toGo s'.files < s.poll.toGo s.files := by
  rw [runPoll]
  split
  · next h => exact absurd h hp
  · next h =>
      refine ⟨_, rfl, ?_⟩
      simp only [Poll.toGo, h, List.length_cons]
      omega
  · next h =>
      split
      · refine ⟨_, rfl, ?_⟩
        simp only [Poll.toGo, h]
        omega
      · refine ⟨_, rfl, ?_⟩
        simp only [Poll.toGo, h]
        omega
  · next h =>
      refine ⟨_, rfl, ?_⟩
      simp only [Poll.toGo, h]
      omega
  · next h =>
      split
      · refine ⟨_, rfl, ?_⟩
        simp only [Poll.toGo, h, List.map_cons, List.sum_cons]
        omega
      · refine ⟨_, rfl, ?_⟩
        simp only [Poll.toGo, h, List.map_cons, List.sum_cons]
        omega
  · next f pos index skip todo h =>
      split
      · refine ⟨_, rfl, ?_⟩
        simp only [Poll.toGo, h]
        omega
      · next pkt hpkt =>
          have hlt : pos < (packets s.files f).length := (List.getElem?_eq_some_iff.1 hpkt).1
          split
          · refine ⟨_, rfl, ?_⟩
            simp only [Poll.toGo, h]
            omega
          · refine ⟨_, rfl, ?_⟩
            simp only [Poll.toGo, h]
            omega

/-- **A poll returns**, if nothing is appended meanwhile. -/
theorem poll_returns (s : State) :
    ∃ s', Reach step (fun _ e => e = .run) s s' ∧ s'.poll = .idle := by
  generalize hn : s.poll.toGo s.files = n
  induction n using Nat.strong_induction_on generalizing s with
  | _ n ih =>
      by_cases hp : s.poll = .idle
      · exact ⟨s, .start, hp⟩
      · obtain ⟨t, ht, hlt⟩ := runPoll_toGo hp
        obtain ⟨s', hreach, hidle⟩ := ih _ (hn ▸ hlt) t rfl
        have hone : Reach step (fun _ e => e = .run) s t := Reach.start.next (e := .run) rfl ht
        exact ⟨s', hone.trans hreach, hidle⟩

/-! ## Two runs -/

instance (s : State) (e : Event) : Decidable (FitsInt s e) :=
  match e with
  | .append _ _ => inferInstanceAs (Decidable (_ < _))
  | .call => inferInstanceAs (Decidable True)
  | .run => inferInstanceAs (Decidable True)

/-- A frame with a `GRANT_WO_AGENT`. -/
def grantFrame : List Byte := buildFrameFromPost ([3] ++ List.replicate 16 0)

/-- The switch sends a packet, and the host polls. -/
def pollOnce : List Event := [.append .vethH1 grantFrame, .call] ++ List.replicate 12 .run

/-- Files without packets. -/
def emptyFiles : Files := fun _ => some []

/-- A packet that is sent to a host with empty capture files is dispatched. -/
theorem dispatched_once_empty :
    ∃ s, Reach step FitsInt (.init emptyFiles) s ∧ s.dispatched ≠ [] ∧ DispatchedOnce s := by
  have hex : ∃ s, Reach step FitsInt (.init emptyFiles) s
      ∧ (s.poll = .idle ∧ s.fresh = true ∧ s.dispatched ≠ []
        ∧ ∀ f ∈ pcapNames, ∀ pkt ∈ s.appended f, pkt = grantFrame) :=
    Reach.exists_of_runFrom pollOnce (by decide +kernel)
  obtain ⟨s, hs, hidle, hfresh, hne, happended⟩ := hex
  refine ⟨s, hs, hne, ?_⟩
  refine (dispatched_once_iff emptyFiles (fun _ => Nat.two_pow_pos 31) hs hidle hfresh).2
    (.inr ⟨fun _ => rfl, fun f pkt hpkt _ => ?_⟩)
  have hgrant : IsLockFrame grantFrame := by decide +kernel
  rw [happended f (by cases f <;> decide) pkt hpkt]
  exact hgrant

/-- The capture of an earlier run. -/
def oldFiles : Files := Function.update emptyFiles .vethH1 (some [grantFrame])

/-- **Old packets are dispatched**, as soon as there is a new one. -/
theorem dispatched_once_fails :
    ¬ ∀ (files : Files) (s : State), Reach step FitsInt (.init files) s → s.poll = .idle →
      s.fresh = true → DispatchedOnce s := by
  intro hall
  have hex : ∃ s, Reach step FitsInt (.init oldFiles) s ∧ (s.poll = .idle ∧ s.fresh = true
      ∧ s.dispatchedFrom .vethH1 ≠ wellFormedPosts (s.appended .vethH1)) :=
    Reach.exists_of_runFrom (pollOnce ++ [.run]) (by decide +kernel)
  obtain ⟨s, hs, hidle, hfresh, hne⟩ := hex
  exact hne (hall oldFiles s hs hidle hfresh .vethH1)

end Capture

end FissLock
