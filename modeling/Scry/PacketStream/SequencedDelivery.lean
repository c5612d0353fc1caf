import Scry.Library.InOrder
import Scry.PacketStream.CachedCopies
import Scry.PacketStream.GivingUp

/-! Packets that arrive in any order, some more than once, are handed on in the order in which
they were sent, each one once. The stream's sixteen-bit numbers, its cache and its loop over
followers come to the same as a set of received numbers without a bound.
-/

namespace Scry

open InOrder (firstMissing heldBack)
open Serial (ofIndex numbersFrom)

/-- What a sender sends to a stream in one session: the datagrams by their index, and what the
stream decodes them to.
-/
structure SenderHistory (context : StreamContext) (start : EQPacketStream) (depth : Nat) where
  count : Nat
  datagram : Nat → Bytes
  packet : Nat → EQProtocolPacket
  udp : ∀ i < count, (datagram i).length < 65536
  valid : ∀ i < count,
    (EQProtocolPacket.ofDatagram (datagram i)).passesCRC start.sessionKey = true
  decoded : ∀ i < count,
    (EQProtocolPacket.ofDatagram (datagram i)).decode context.uncompress start.maxLength
      = some (packet i)
  numbered : ∀ i < count, (packet i).hasArqSeq = true ∧ (packet i).arqSeq = ofIndex i
  plain : start.fragment.takesPlain depth ((List.range count).map packet) = true

namespace EQPacketStream

variable {context : StreamContext} {start s t : EQPacketStream} {depth : Nat}

/-- Only what one packet after another changes is different. -/
def SameSession (start s : EQPacketStream) : Prop :=
  s = { start with
    cache := s.cache
    arqSeqExp := s.arqSeqExp
    fragment := s.fragment
    replaying := s.replaying }

-----------------------------------------------------------------------------------------
-- Deliveries one after another
-----------------------------------------------------------------------------------------

theorem SameSession.arqSeqGiveUp_eq (same : SameSession start s)
    : s.arqSeqGiveUp = start.arqSeqGiveUp := by
  rw [SameSession] at same
  rw [same]

theorem SameSession.sessionKey_eq (same : SameSession start s)
    : s.sessionKey = start.sessionKey := by
  rw [SameSession] at same
  rw [same]

theorem SameSession.delivered (same : SameSession start s) (packet : EQProtocolPacket)
    : SameSession start (s.delivered packet) := by
  rw [SameSession] at same ⊢
  rw [same]
  rfl

theorem SameSession.took (same : SameSession start s) (packet : EQProtocolPacket)
    : SameSession start (s.took packet) := by
  rw [SameSession] at same ⊢
  rw [same]
  rfl

theorem SameSession.foldl_delivered (same : SameSession start s) (packets : List EQProtocolPacket)
    : SameSession start (packets.foldl EQPacketStream.delivered s) := by
  induction packets generalizing s with
  | nil => exact same
  | cons packet rest ih => exact ih (same.delivered packet)

theorem foldl_delivered_fragment (s : EQPacketStream) (packets : List EQProtocolPacket)
    : (packets.foldl EQPacketStream.delivered s).fragment
      = packets.foldl EQPacketFragmentSequence.taken s.fragment := by
  induction packets generalizing s with
  | nil => rfl
  | cons packet rest ih => exact ih (s.delivered packet)

theorem takesPlain_append {f : EQPacketFragmentSequence} {first last : List EQProtocolPacket}
    : f.takesPlain depth (first ++ last) = true
      ↔ f.takesPlain depth first = true
        ∧ (first.foldl EQPacketFragmentSequence.taken f).takesPlain depth last = true := by
  induction first generalizing f with
  | nil => simp [EQPacketFragmentSequence.takesPlain]
  | cons packet rest ih =>
      rw [List.cons_append, EQPacketFragmentSequence.takesPlain_cons,
        EQPacketFragmentSequence.takesPlain_cons, ih, and_assoc]
      rfl

-----------------------------------------------------------------------------------------
-- A packet that is not expected
-----------------------------------------------------------------------------------------

/-- The window test sees what lies ahead by less than the cutoff, across the end of the numbers.
-/
theorem isFuture_of_ahead {next i : Nat} (further : next < i) (near : i ≤ next + 1023)
    : isFuture (ofIndex next) (ofIndex i) = true := by
  have nextNat : (ofIndex next).toNat = next % 65536 := UInt16.toNat_ofNat'
  have iNat : (ofIndex i).toNat = i % 65536 := UInt16.toNat_ofNat'
  simp only [isFuture, arqSeqWrapCutoff, UInt16.lt_iff_toNat_lt, nextNat, iNat, Bool.or_eq_true,
    Bool.and_eq_true, decide_eq_true_eq]
  omega

/-- It does not see what lies behind by less than the cutoff. -/
theorem isFuture_of_behind {next i : Nat} (behind : i < next) (near : next ≤ i + 1023)
    : isFuture (ofIndex next) (ofIndex i) = false := by
  have nextNat : (ofIndex next).toNat = next % 65536 := UInt16.toNat_ofNat'
  have iNat : (ofIndex i).toNat = i % 65536 := UInt16.toNat_ofNat'
  simp only [isFuture, arqSeqWrapCutoff, UInt16.lt_iff_toNat_lt, nextNat, iNat,
    Bool.or_eq_false_iff, Bool.and_eq_false_iff, decide_eq_false_iff_not]
  omega

theorem processNetOpCode_unexpected {processInner : EQProtocolPacket → StreamM Unit}
    {packet : EQProtocolPacket} {header : Option IPHeader} (numbered : packet.hasArqSeq = true)
    (unexpected : packet.arqSeq ≠ s.arqSeqExp)
    : processNetOpCode context processInner packet header s
      = Traced.when (isFuture s.arqSeqExp packet.arqSeq) (setCache packet.arqSeq packet) s := by
  simp only [EQProtocolPacket.hasArqSeq, Bool.or_eq_true, beq_iff_eq] at numbered
  rcases numbered with kind | kind
  · rw [processNetOpCode_packet kind]
    simp only [processSequenced, Traced.get_bind_run, unexpected, if_false]
  · rw [processNetOpCode_oversized kind]
    simp only [processOversized, Traced.get_bind_run, unexpected, if_false]

/-- A packet from the past changes nothing. -/
theorem processPacket_past {fuel : Nat} {packet : EQProtocolPacket} {header : Option IPHeader}
    (numbered : packet.hasArqSeq = true) (unexpected : packet.arqSeq ≠ s.arqSeqExp)
    (past : isFuture s.arqSeqExp packet.arqSeq = false)
    : processPacket context (fuel + 1) packet header s
      = .ok ((), s, [.processing s packet]) := by
  have branch := @processNetOpCode_unexpected context s
    (fun inner => processPacket context fuel inner none) packet header numbered unexpected
  rw [past, Traced.when_neg Bool.false_ne_true] at branch
  exact Traced.bind_eq_ok.mpr ⟨s, s, [], [.processing s packet], rfl,
    Traced.bind_eq_ok.mpr ⟨(), s, [.processing s packet], [], rfl, branch, rfl⟩, rfl⟩

/-- A packet from the future is in the cache afterwards, as a new entry or in place of the one
that was there.
-/
theorem processPacket_future {fuel : Nat} {packet : EQProtocolPacket} {header : Option IPHeader}
    (numbered : packet.hasArqSeq = true) (unexpected : packet.arqSeq ≠ s.arqSeqExp)
    (future : isFuture s.arqSeqExp packet.arqSeq = true)
    (valid : packet.passesCRC s.sessionKey = true)
    : ∃ w,
        processPacket context (fuel + 1) packet header s
            = .ok ((), s.stored packet.arqSeq packet, w)
          ∧ expectedPackets w = [] := by
  have branch := @processNetOpCode_unexpected context s
    (fun inner => processPacket context fuel inner none) packet header numbered unexpected
  rw [Traced.when_pos future] at branch
  have visited : expectedPacket (.processing s packet) = none :=
    if_neg fun expects => unexpected expects.2
  have started (w : List StreamEvent) (run : setCache packet.arqSeq packet s
        = .ok ((), s.stored packet.arqSeq packet, w))
      : processPacket context (fuel + 1) packet header s
        = .ok ((), s.stored packet.arqSeq packet, .processing s packet :: w) :=
    Traced.bind_eq_ok.mpr ⟨s, s, [], .processing s packet :: w, rfl,
      Traced.bind_eq_ok.mpr ⟨(), s, [.processing s packet], w, rfl, branch.trans run, rfl⟩, rfl⟩
  cases found : s.cache.find? packet.arqSeq with
  | none =>
      refine ⟨_, started [] ?_, List.filterMap_cons_none visited⟩
      simp only [setCache, Traced.get_bind_run, found, Traced.modify_run]
  | some old =>
      refine ⟨_, started [.deletePacket packet.arqSeq] ?_, List.filterMap_cons_none visited⟩
      simp only [setCache, Traced.get_bind_run, found, Traced.when_pos valid]
      rfl

-----------------------------------------------------------------------------------------
-- The cache behind a packet
-----------------------------------------------------------------------------------------

/-- A cache that is small enough to wait is only followed, from the expected number on. -/
theorem processCache_follows (context : StreamContext) {fuel count : Nat}
    (few : s.cache.size < s.arqSeqGiveUp.toNat) (deep : depth < fuel)
    (sequenced : s.CachesSequenced) (valid : s.CachesValid) (round : count ≤ 65536)
    (near : ∀ seq ∈ s.cache.keys, seq ∈ numbersFrom s.arqSeqExp count)
    (plain : s.fragment.takesPlain depth (s.packetsAt (s.runNumbers count)) = true)
    (enough : s.cache.size < fuel)
    : ∃ t w,
        Traced.when (!s.cache.isEmpty) (processCache context fuel) s = .ok ((), t, w)
          ∧ s.Delivers t w (s.runNumbers count) := by
  cases empty : s.cache.isEmpty with
  | true =>
      have missing := OrderedMap.isEmpty_iff.mp empty s.arqSeqExp
      refine ⟨s, [], rfl, ?_⟩
      rw [runNumbers_of_notMem missing]
      exact delivers_nil
  | false =>
      let position : Option UInt16 :=
        if (s.cache.find? s.arqSeqExp).isSome then some s.arqSeqExp else none
      have following : s.Following position count := {
        round, near
        found := fun key => if_pos (by
          obtain ⟨packet, entry⟩ := OrderedMap.mem_keys_iff.mp key
          exact Option.isSome_of_eq_some entry)
        cached := fun seq found => by
          simp only [position] at found
          split_ifs at found with here
          obtain ⟨packet, entry⟩ := Option.isSome_iff_exists.mp here
          exact OrderedMap.mem_keys_iff.mpr ⟨packet, Option.some.inj found ▸ entry⟩
      }
      obtain ⟨t, w, followed, delivers⟩ :=
        @follow_delivers context s depth fuel count fuel position deep sequenced valid following
          plain enough
      have waits
          : Traced.when (s.arqSeqGiveUp.toNat ≤ s.cache.size) (skipMissing (skipBound + 1)) s
            = .ok ((), s, []) := by
        rw [Traced.when_neg (not_le.mpr few)]
        rfl
      exact ⟨t, w, processCache_eq_ok.mpr ⟨s, [], w, waits, followed, rfl⟩, delivers⟩

end EQPacketStream

-----------------------------------------------------------------------------------------
-- Arrivals
-----------------------------------------------------------------------------------------

namespace SenderHistory

open EQPacketStream (Arrival handlePacket processCache expectedPackets SameSession)

variable {context : StreamContext} {start s : EQPacketStream} {depth : Nat}
variable (h : SenderHistory context start depth)

/-- A copy of one of the packets arrives. -/
def arrival (copy : IPHeader × Nat) : Arrival := .packet copy.1 (h.datagram copy.2)

/-- Every copy that arrives was sent and lies near the next undelivered one, and fewer packets are
held back at any time than the stream gives up at.
-/
def Admissible : Finset Nat → List (IPHeader × Nat) → Prop
  | received, [] => (heldBack received).card < start.arqSeqGiveUp.toNat
  | received, copy :: rest =>
      (heldBack received).card < start.arqSeqGiveUp.toNat
      ∧ copy.2 < h.count
      ∧ (copy.2 ≤ firstMissing received + 1023 ∧ firstMissing received ≤ copy.2 + 1023)
      ∧ Admissible (insert copy.2 received) rest

/-- The gates in front of a stream let a copy through: the session has a key, the copy belongs
to the client that the stream is latched to, and its ports are not ignored.
-/
structure Passes (copy : IPHeader × Nat) : Prop where
  keyed : start.sessionKey ≠ 0
  own : start.latchedElsewhere copy.1 = false
  ports : ((EQProtocolPacket.ofDatagram (h.datagram copy.2)).hasCRC
    && (EQPacketStream.isIgnoredPort copy.1.sourcePort
      || EQPacketStream.isIgnoredPort copy.1.destPort)) = false

/-- What the stream is like when some packets have been received, in any order. -/
structure Delivered (received : Finset Nat) (t : EQPacketStream) (w : List StreamEvent)
    : Prop where
  delivered : expectedPackets w = (List.range (firstMissing received)).map h.packet
  expects : t.arqSeqExp = ofIndex (firstMissing received)
  cached : ∀ seq packet, t.cache.find? seq = some packet
    ↔ ∃ i ∈ heldBack received, ofIndex i = seq ∧ h.packet i = packet

/-- The stream stands where the received packets put it. -/
structure Tracks (received : Finset Nat) (s : EQPacketStream) : Prop where
  session : SameSession start s
  sent : ∀ i ∈ received, i < h.count
  near : ∀ i ∈ heldBack received, i ≤ firstMissing received + 1023
  expects : s.arqSeqExp = ofIndex (firstMissing received)
  cached : ∀ seq packet, s.cache.find? seq = some packet
    ↔ ∃ i ∈ heldBack received, ofIndex i = seq ∧ h.packet i = packet
  fragment : s.fragment
    = ((List.range (firstMissing received)).map h.packet).foldl EQPacketFragmentSequence.taken
      start.fragment

variable {h} {received : Finset Nat} {i : Nat}

theorem accept_of_passes {copy : IPHeader × Nat} (session : SameSession start s)
    (passes : h.Passes copy) (inside : copy.2 < h.count)
    : EQPacketStream.accept context s copy.1 (.ofDatagram (h.datagram copy.2))
      = some (h.packet copy.2) := by
  have keyed : (start.sessionKey == 0) = false := beq_eq_false_iff_ne.mpr passes.keyed
  have kept : EQPacketStream.accept context s copy.1 (.ofDatagram (h.datagram copy.2))
      = EQPacketStream.accept context start copy.1 (.ofDatagram (h.datagram copy.2)) := by
    rw [session]
    rfl
  rw [kept, EQPacketStream.accept, EQPacketStream.awaitsSession, keyed, passes.own, passes.ports,
    h.valid _ inside, h.decoded _ inside]
  simp

theorem passesCRC (session : SameSession start s) (inside : i < h.count)
    : (h.packet i).passesCRC s.sessionKey = true := by
  rw [session.sessionKey_eq]
  exact EQProtocolPacket.passesCRC_decode (h.decoded i inside) (h.valid i inside)

theorem firstMissing_le_count (sent : ∀ i ∈ received, i < h.count)
    : firstMissing received ≤ h.count := by
  by_contra beyond
  exact absurd (sent _ (InOrder.mem_of_lt_firstMissing (not_le.mp beyond))) (lt_irrefl _)

/-- A nearby number is cached when its packet is held back. -/
theorem Tracks.mem_keys_iff (tracks : h.Tracks received s) (least : firstMissing received ≤ i)
    (near : i < firstMissing received + 65536)
    : ofIndex i ∈ s.cache.keys ↔ i ∈ heldBack received := by
  rw [OrderedMap.mem_keys_iff]
  constructor
  · rintro ⟨packet, entry⟩
    obtain ⟨j, held, same, -⟩ := (tracks.cached _ _).mp entry
    have further := (InOrder.mem_heldBack.mp held).2
    have within := tracks.near j held
    rwa [← Serial.ofIndex_inj further.le (by omega) least near same]
  · exact fun held => ⟨h.packet i, (tracks.cached _ _).mpr ⟨i, held, rfl, rfl⟩⟩

theorem Tracks.find?_ofIndex (tracks : h.Tracks received s) (held : i ∈ heldBack received)
    : s.cache.find? (ofIndex i) = some (h.packet i) :=
  (tracks.cached _ _).mpr ⟨i, held, rfl, rfl⟩

theorem Tracks.expects_notMem (tracks : h.Tracks received s)
    : s.arqSeqExp ∉ s.cache.keys := by
  rw [tracks.expects, tracks.mem_keys_iff le_rfl (by omega)]
  exact fun held => absurd (InOrder.mem_heldBack.mp held).2 (lt_irrefl _)

/-- The cache is no larger than the set of packets held back. -/
theorem Tracks.size_le (tracks : h.Tracks received s)
    : s.cache.size ≤ (heldBack received).card := by
  have keys : s.cache.keys.toFinset ⊆ (heldBack received).image ofIndex := by
    intro seq member
    obtain ⟨packet, entry⟩ := OrderedMap.mem_keys_iff.mp (List.mem_toFinset.mp member)
    obtain ⟨j, held, same, -⟩ := (tracks.cached _ _).mp entry
    exact Finset.mem_image.mpr ⟨j, held, same⟩
  have distinct : s.cache.keys.toFinset.card = s.cache.size := by
    rw [List.toFinset_card_of_nodup s.cache.keys_nodup, OrderedMap.keys, List.length_map]
    rfl
  rw [← distinct]
  exact (Finset.card_le_card keys).trans Finset.card_image_le

theorem Tracks.cachesSequenced (tracks : h.Tracks received s) : s.CachesSequenced := by
  intro seq packet entry
  obtain ⟨j, held, rfl, rfl⟩ := (tracks.cached _ _).mp entry
  exact h.numbered j (tracks.sent j (InOrder.mem_heldBack.mp held).1)

theorem Tracks.cachesValid (tracks : h.Tracks received s) : s.CachesValid := by
  intro seq packet entry
  obtain ⟨j, held, rfl, rfl⟩ := (tracks.cached _ _).mp entry
  exact passesCRC tracks.session (tracks.sent j (InOrder.mem_heldBack.mp held).1)

-----------------------------------------------------------------------------------------
-- One arrival
-----------------------------------------------------------------------------------------

/-- The packets from the next one on are plain for the buffer that those before it leave. -/
theorem plain_behind (h : SenderHistory context start depth) {first length : Nat}
    (inside : first + length ≤ h.count)
    : (((List.range first).map h.packet).foldl EQPacketFragmentSequence.taken
          start.fragment).takesPlain depth ((List.range' first length).map h.packet)
      = true := by
  have parts : List.range h.count
      = (List.range first ++ List.range' first length)
        ++ List.range' (first + length) (h.count - (first + length)) := by
    rw [InOrder.range_append, InOrder.range_append, Nat.add_sub_cancel' inside]
  have plain := h.plain
  rw [parts, List.map_append, List.map_append, EQPacketStream.takesPlain_append,
    EQPacketStream.takesPlain_append] at plain
  exact plain.1.2

/-- With a small cache that lacks the expected packet, nothing more happens. -/
theorem Tracks.settled {fuel : Nat} (tracks : h.Tracks received s)
    (few : (heldBack received).card < start.arqSeqGiveUp.toNat) (deep : depth < fuel)
    (enough : start.arqSeqGiveUp.toNat ≤ fuel)
    : ∃ w,
        Traced.when (!s.cache.isEmpty) (processCache context fuel) s = .ok ((), s, w)
          ∧ expectedPackets w = [] := by
  have size := tracks.size_le
  have giveUp : s.arqSeqGiveUp = start.arqSeqGiveUp := tracks.session.arqSeqGiveUp_eq
  have stops := @EQPacketStream.runNumbers_of_notMem s 65536 tracks.expects_notMem
  obtain ⟨t, w, run, delivers⟩ :=
    @EQPacketStream.processCache_follows s depth context fuel 65536 (by rw [giveUp]; omega) deep
      tracks.cachesSequenced tracks.cachesValid le_rfl
      (fun seq _ => Serial.mem_numbersFrom_round _ seq) (by rw [stops]; rfl) (by omega)
  rw [stops] at delivers
  obtain rfl : t = s := delivers.state
  exact ⟨w, run, delivers.expected⟩

/-- Only the next packet has the expected number, as far as the window reaches. -/
theorem Tracks.unexpected (tracks : h.Tracks received s) (inside : i < h.count)
    (elsewhere : i ≠ firstMissing received) (ahead : i ≤ firstMissing received + 1023)
    (behind : firstMissing received ≤ i + 1023)
    : (h.packet i).arqSeq ≠ s.arqSeqExp := by
  rw [(h.numbered i inside).2, tracks.expects]
  intro same
  rcases Nat.le_total i (firstMissing received) with before | after
  · exact elsewhere (@Serial.ofIndex_inj i i _ le_rfl (by omega) before (by omega) same)
  · exact elsewhere (@Serial.ofIndex_inj _ i _ after (by omega) le_rfl (by omega) same)

/-- A packet from before the next one changes nothing. -/
theorem Tracks.past {fuel : Nat} (header : Option IPHeader) (tracks : h.Tracks received s)
    (inside : i < h.count) (before : i < firstMissing received)
    (near : firstMissing received ≤ i + 1023)
    : ∃ w,
        EQPacketStream.processPacket context (fuel + 1) (h.packet i) header s = .ok ((), s, w)
          ∧ expectedPackets w = [] := by
  obtain ⟨numbered, name⟩ := h.numbered i inside
  have unexpected := tracks.unexpected inside before.ne (by omega) near
  have past : EQPacketStream.isFuture s.arqSeqExp (h.packet i).arqSeq = false := by
    rw [name, tracks.expects]
    exact EQPacketStream.isFuture_of_behind before near
  exact ⟨_, EQPacketStream.processPacket_past numbered unexpected past,
    List.filterMap_cons_none (if_neg fun expects => unexpected expects.2)⟩

/-- A packet from beyond the next one is cached. -/
theorem Tracks.held {fuel : Nat} (header : Option IPHeader)
    (fills : FillsBuffer context.uncompress) (tracks : h.Tracks received s)
    (inside : i < h.count) (further : firstMissing received < i)
    (near : i ≤ firstMissing received + 1023)
    : ∃ t w,
        EQPacketStream.processPacket context (fuel + 1) (h.packet i) header s = .ok ((), t, w)
          ∧ h.Tracks (insert i received) t
          ∧ expectedPackets w = [] := by
  obtain ⟨numbered, name⟩ := h.numbered i inside
  have exact := EQProtocolPacket.exact_decode fills (h.udp i inside) (h.decoded i inside)
  have stays := InOrder.firstMissing_insert_of_ne further.ne'
  have distinct {j : Nat} (least : firstMissing received ≤ j)
      (within : j ≤ firstMissing received + 1023) (same : ofIndex j = ofIndex i)
      : j = i :=
    Serial.ofIndex_inj least (by omega) further.le (by omega) same
  have unexpected := tracks.unexpected inside further.ne' near (by omega)
  have future : EQPacketStream.isFuture s.arqSeqExp (h.packet i).arqSeq = true := by
    rw [name, tracks.expects]
    exact EQPacketStream.isFuture_of_ahead further (by omega)
  obtain ⟨w, run, expected⟩ :=
    @EQPacketStream.processPacket_future context s fuel (h.packet i) header numbered unexpected
      future (passesCRC tracks.session inside)
  refine ⟨_, w, run, ?_, expected⟩
  exact {
    session := congrArg (fun u : EQPacketStream => u.stored _ _) tracks.session
    sent := fun j member => (Finset.mem_insert.mp member).elim (fun same => same ▸ inside)
      (tracks.sent j)
    near := by
      rw [stays, InOrder.heldBack_insert_of_lt further]
      intro j member
      rcases Finset.mem_insert.mp member with rfl | older
      · exact near
      · exact tracks.near j older
    expects := stays ▸ tracks.expects
    cached := by
      intro seq packet
      rw [InOrder.heldBack_insert_of_lt further]
      change (s.cache.insert (h.packet i).arqSeq (h.packet i).copy).find? seq = some packet ↔ _
      rw [exact.copy_eq, name, OrderedMap.find?_insert]
      constructor
      · intro found
        split_ifs at found with same
        · exact ⟨i, Finset.mem_insert_self _ _, same.symm, Option.some.inj found⟩
        · obtain ⟨j, older, rest⟩ := (tracks.cached _ _).mp found
          exact ⟨j, Finset.mem_insert_of_mem older, rest⟩
      · rintro ⟨j, member, rfl, rfl⟩
        rcases Finset.mem_insert.mp member with rfl | older
        · exact if_pos rfl
        · split_ifs with same
          · rw [distinct (InOrder.mem_heldBack.mp older).2.le (tracks.near j older) same]
          · exact tracks.find?_ofIndex older
    fragment := stays ▸ tracks.fragment
  }

/-- How many packets behind the next one are held back without a gap, and what they are to a
stream that expects the first of them.
-/
structure Followers (h : SenderHistory context start depth) (received : Finset Nat)
    (u : EQPacketStream) (length : Nat)
    : Prop where
  run : u.runNumbers 1023 = (List.range' (firstMissing received + 1) length).map ofIndex
  packets : u.packetsAt (u.runNumbers 1023)
    = (List.range' (firstMissing received + 1) length).map h.packet
  moved : firstMissing (insert (firstMissing received) received)
    = firstMissing received + 1 + length
  among : ∀ j ∈ heldBack received,
    ofIndex j ∈ u.runNumbers 1023 ↔ j < firstMissing received + 1 + length

theorem Tracks.exists_followers (tracks : h.Tracks received s) {u : EQPacketStream}
    (cache : u.cache = s.cache) (expects : u.arqSeqExp = ofIndex (firstMissing received + 1))
    : ∃ length, h.Followers received u length := by
  obtain ⟨length, fits, taken, inside, stops⟩ :=
    InOrder.exists_run (fun i => decide (i ∈ heldBack received)) (firstMissing received + 1) 1023
  have run : u.runNumbers 1023 = (List.range' (firstMissing received + 1) length).map ofIndex := by
    rw [EQPacketStream.runNumbers, expects, Serial.numbersFrom_ofIndex, List.takeWhile_map,
      ← taken]
    refine congrArg _ (InOrder.takeWhile_congr fun i member => ?_)
    rw [List.mem_range'_1] at member
    rw [Function.comp_apply, decide_eq_decide, cache]
    exact tracks.mem_keys_iff (by omega) (by omega)
  refine ⟨length, run, ?_, ?_, fun j held => ?_⟩
  · rw [run, EQPacketStream.packetsAt, List.filterMap_map, ← List.filterMap_eq_map]
    refine List.filterMap_congr fun i member => ?_
    rw [List.mem_range'_1] at member
    rw [Function.comp_apply, cache]
    exact tracks.find?_ofIndex (of_decide_eq_true (inside i member.1 member.2))
  · refine InOrder.firstMissing_insert_self (by omega) (fun j further below => ?_) fun held => ?_
    · exact of_decide_eq_true (inside j further (by omega))
    · have within := tracks.near _ held
      exact absurd held (of_decide_eq_false (stops (by omega)))
  · have further := (InOrder.mem_heldBack.mp held).2
    have within := tracks.near j held
    rw [run, List.mem_map]
    constructor
    · rintro ⟨n, member, same⟩
      rw [List.mem_range'_1] at member
      rw [← @Serial.ofIndex_inj (firstMissing received) n j (by omega) (by omega) (by omega)
        (by omega) same]
      exact member.2
    · exact fun early => ⟨j, List.mem_range'_1.mpr ⟨further, early⟩, rfl⟩

/-- All that is cached lies behind the next packet, as far as the window reaches. -/
theorem Tracks.keys_near (tracks : h.Tracks received s)
    : ∀ seq ∈ s.cache.keys, seq ∈ numbersFrom (ofIndex (firstMissing received + 1)) 1023 := by
  intro seq key
  obtain ⟨packet, entry⟩ := OrderedMap.mem_keys_iff.mp key
  obtain ⟨j, held, rfl, -⟩ := (tracks.cached _ _).mp entry
  have further := (InOrder.mem_heldBack.mp held).2
  have within := tracks.near j held
  rw [Serial.mem_numbersFrom, Serial.ahead_ofIndex further (by omega)]
  omega

/-- What stays in the cache are the packets that are still held back. -/
theorem Followers.cached {u : EQPacketStream} {length : Nat} {w : List StreamEvent}
    (followers : h.Followers received u length) (tracks : h.Tracks received s)
    (cache : u.cache = s.cache) (delivers : u.Delivers t w (u.runNumbers 1023))
    (seq : UInt16) (packet : EQProtocolPacket)
    : t.cache.find? seq = some packet
      ↔ ∃ i ∈ heldBack (insert (firstMissing received) received),
          ofIndex i = seq ∧ h.packet i = packet := by
  have left := InOrder.heldBack_insert_self (by omega) followers.moved
  rw [delivers.left, left, cache]
  constructor
  · intro found
    split_ifs at found with taken
    obtain ⟨j, held, rfl, rfl⟩ := (tracks.cached _ _).mp found
    rw [followers.among j held] at taken
    have missing := InOrder.firstMissing_notMem (insert (firstMissing received) received)
    have later := Nat.lt_of_le_of_ne (not_lt.mp taken)
    refine ⟨j, Finset.mem_filter.mpr ⟨held, later ?_⟩, rfl, rfl⟩
    rintro rfl
    rw [followers.moved] at missing
    exact missing (Finset.mem_insert_of_mem (InOrder.mem_heldBack.mp held).1)
  · rintro ⟨j, member, rfl, rfl⟩
    obtain ⟨held, later⟩ := Finset.mem_filter.mp member
    rw [if_neg fun taken => absurd ((followers.among j held).mp taken) later.asymm]
    exact tracks.find?_ofIndex held

/-- Behind the next packet and its followers the stream stands where the received packets put
it.
-/
theorem Tracks.followed {length : Nat} {w : List StreamEvent} (tracks : h.Tracks received s)
    (sent : ∀ j ∈ insert (firstMissing received) received, j < h.count)
    (followers : h.Followers received (s.took (h.packet (firstMissing received))) length)
    (delivers : (s.took (h.packet (firstMissing received))).Delivers t w
      ((s.took (h.packet (firstMissing received))).runNumbers 1023))
    : h.Tracks (insert (firstMissing received) received) t where
  session := delivers.state ▸ (tracks.session.took _).foldl_delivered _
  sent := sent
  near := by
    intro j member
    rw [InOrder.heldBack_insert_self (by omega) followers.moved, Finset.mem_filter] at member
    have within := tracks.near j member.1
    have grows := InOrder.firstMissing_le_insert received (firstMissing received)
    omega
  expects := by
    rw [delivers.next, followers.run, List.length_map, List.length_range', followers.moved]
    change s.arqSeqExp + 1 + UInt16.ofNat length = _
    rw [tracks.expects, Serial.ofIndex_succ]
    exact (UInt16.ofNat_add _ _).symm
  cached := followers.cached tracks rfl delivers
  fragment := by
    rw [delivers.state, EQPacketStream.foldl_delivered_fragment, followers.packets,
      followers.moved, Nat.add_assoc, ← InOrder.range_append, Nat.add_comm 1, List.range'_succ,
      List.map_append, List.foldl_append, ← tracks.fragment]
    rfl

/-- The next packet is handed on, and with it those behind it that were held back. -/
theorem Tracks.expected {fuel : Nat} (header : Option IPHeader) (tracks : h.Tracks received s)
    (few : (heldBack received).card < start.arqSeqGiveUp.toNat) (deep : depth < fuel)
    (enough : start.arqSeqGiveUp.toNat ≤ fuel) (inside : firstMissing received < h.count)
    : ∃ u early t late,
        EQPacketStream.processPacket context fuel (h.packet (firstMissing received)) header s
            = .ok ((), u, early)
          ∧ Traced.when (!u.cache.isEmpty) (processCache context fuel) u = .ok ((), t, late)
          ∧ h.Tracks (insert (firstMissing received) received) t
          ∧ expectedPackets (early ++ late)
            = (List.range' (firstMissing received)
                (firstMissing (insert (firstMissing received) received)
                  - firstMissing received)).map h.packet := by
  obtain ⟨numbered, name⟩ := h.numbered _ inside
  have expects : s.Expects (h.packet (firstMissing received)) :=
    ⟨numbered, name.trans tracks.expects.symm⟩
  have sent : ∀ j ∈ insert (firstMissing received) received, j < h.count := fun j member =>
    (Finset.mem_insert.mp member).elim (fun same => same ▸ inside) (tracks.sent j)
  let u := s.took (h.packet (firstMissing received))
  have next : u.arqSeqExp = ofIndex (firstMissing received + 1) := by
    rw [← Serial.ofIndex_succ, ← tracks.expects]
    rfl
  obtain ⟨length, followers⟩ := tracks.exists_followers (u := u) rfl next
  have bound := firstMissing_le_count sent
  rw [followers.moved] at bound
  have plain := @plain_behind context start depth h (firstMissing received) (length + 1) (by omega)
  rw [← tracks.fragment, List.range'_succ, List.map_cons,
    EQPacketFragmentSequence.takesPlain_cons] at plain
  obtain ⟨early, processed, handed, -, -⟩ :=
    @EQPacketStream.processPacket_expected s context depth fuel _ header expects plain.1 deep
  have size : u.cache.size ≤ (heldBack received).card := tracks.size_le
  have giveUp : u.arqSeqGiveUp = start.arqSeqGiveUp := tracks.session.arqSeqGiveUp_eq
  obtain ⟨t, late, followed, delivers⟩ :=
    @EQPacketStream.processCache_follows u depth context fuel 1023 (by rw [giveUp]; omega) deep
      tracks.cachesSequenced tracks.cachesValid (by decide) (next ▸ tracks.keys_near)
      (by rw [followers.packets]; exact plain.2) (by omega)
  refine ⟨u, early, t, late, processed, followed, tracks.followed sent followers delivers, ?_⟩
  rw [EQPacketStream.expectedPackets_append, handed, delivers.expected, followers.packets,
    followers.moved,
    show firstMissing received + 1 + length - firstMissing received = length + 1 by omega,
    List.range'_succ]
  rfl

/-- One arrival, by where its index lies: before the next packet, at it, or beyond it. -/
theorem Tracks.step {fuel : Nat} {copy : IPHeader × Nat} (fills : FillsBuffer context.uncompress)
    (tracks : h.Tracks received s) (few : (heldBack received).card < start.arqSeqGiveUp.toNat)
    (fewAfter : (heldBack (insert copy.2 received)).card < start.arqSeqGiveUp.toNat)
    (inside : copy.2 < h.count) (ahead : copy.2 ≤ firstMissing received + 1023)
    (behind : firstMissing received ≤ copy.2 + 1023) (passes : h.Passes copy)
    (deep : depth < fuel) (enough : start.arqSeqGiveUp.toNat ≤ fuel)
    : ∃ t w,
        handlePacket context fuel copy.1 (h.datagram copy.2) s = .ok ((), t, w)
          ∧ h.Tracks (insert copy.2 received) t
          ∧ expectedPackets w
            = (List.range' (firstMissing received)
                (firstMissing (insert copy.2 received) - firstMissing received)).map h.packet := by
  obtain ⟨header, i⟩ := copy
  have accepted := accept_of_passes tracks.session passes inside
  have handled {u t : EQPacketStream} {early late : List StreamEvent}
      (processed
        : EQPacketStream.processPacket context fuel (h.packet i) (some header) s
          = .ok ((), u, early))
      (followed : Traced.when (!u.cache.isEmpty) (processCache context fuel) u = .ok ((), t, late))
      : handlePacket context fuel header (h.datagram i) s = .ok ((), t, early ++ late) :=
    EQPacketStream.handlePacket_eq_ok.mpr
      (.inr ⟨h.packet i, u, early, late, accepted, processed, followed, rfl⟩)
  have nothing {early late : List StreamEvent} (first : expectedPackets early = [])
      (second : expectedPackets late = [])
      (stays : firstMissing (insert i received) = firstMissing received)
      : expectedPackets (early ++ late)
        = (List.range' (firstMissing received)
            (firstMissing (insert i received) - firstMissing received)).map h.packet := by
    rw [EQPacketStream.expectedPackets_append, first, second, stays, Nat.sub_self]
    rfl
  obtain ⟨steps, rfl⟩ : ∃ n, fuel = n + 1 := ⟨fuel - 1, by omega⟩
  rcases lt_trichotomy i (firstMissing received) with before | rfl | further
  · have same := InOrder.insert_of_lt before
    obtain ⟨early, processed, first⟩ := tracks.past (some header) inside before behind
    obtain ⟨late, followed, second⟩ := tracks.settled few deep enough
    exact ⟨s, early ++ late, handled processed followed, same.symm ▸ tracks,
      nothing first second (congrArg _ same)⟩
  · obtain ⟨u, early, t, late, processed, followed, after, delivered⟩ :=
      tracks.expected (some header) few deep enough inside
    exact ⟨t, early ++ late, handled processed followed, after, delivered⟩
  · have stays := InOrder.firstMissing_insert_of_ne further.ne'
    obtain ⟨u, early, processed, after, first⟩ :=
      tracks.held (some header) fills inside further ahead
    obtain ⟨late, followed, second⟩ := after.settled fewAfter deep enough
    exact ⟨u, early ++ late, handled processed followed, after, nothing first second stays⟩

-----------------------------------------------------------------------------------------
-- All arrivals
-----------------------------------------------------------------------------------------

theorem Admissible.few {arrivals : List (IPHeader × Nat)}
    (admissible : h.Admissible received arrivals)
    : (heldBack received).card < start.arqSeqGiveUp.toNat := by
  cases arrivals with
  | nil => exact admissible
  | cons copy rest => exact admissible.1

theorem Admissible.of_append {first last : List (IPHeader × Nat)}
    (admissible : h.Admissible received (first ++ last))
    : h.Admissible received first := by
  induction first generalizing received with
  | nil => exact admissible.few
  | cons copy rest ih =>
      obtain ⟨few, inside, near, later⟩ := admissible
      exact ⟨few, inside, near, ih later⟩

/-- The stream keeps track of what it received, by induction on the arrivals. -/
theorem Tracks.run {fuel : Nat} {arrivals : List (IPHeader × Nat)}
    (fills : FillsBuffer context.uncompress) (tracks : h.Tracks received s)
    (admissible : h.Admissible received arrivals) (passes : ∀ copy ∈ arrivals, h.Passes copy)
    (deep : depth < fuel) (enough : start.arqSeqGiveUp.toNat ≤ fuel)
    : ∃ t w,
        EQPacketStream.run context fuel (arrivals.map h.arrival) s = .ok ((), t, w)
          ∧ h.Tracks (received ∪ (arrivals.map Prod.snd).toFinset) t
          ∧ (List.range (firstMissing received)).map h.packet ++ expectedPackets w
            = (List.range
                (firstMissing (received ∪ (arrivals.map Prod.snd).toFinset))).map h.packet := by
  induction arrivals generalizing received s with
  | nil =>
      refine ⟨s, [], rfl, ?_, ?_⟩
      · simpa using tracks
      · simp [expectedPackets]
  | cons copy rest ih =>
      obtain ⟨few, inside, ⟨ahead, behind⟩, admissible⟩ := admissible
      have grows := InOrder.firstMissing_le_insert received copy.2
      obtain ⟨u, early, arrived, after, first⟩ :=
        tracks.step fills few admissible.few inside ahead behind
          (passes copy List.mem_cons_self) deep enough
      obtain ⟨t, late, completed, final, second⟩ :=
        ih after admissible fun other member => passes other (List.mem_cons_of_mem _ member)
      have both : received ∪ ((copy :: rest).map Prod.snd).toFinset
          = insert copy.2 received ∪ (rest.map Prod.snd).toFinset := by
        rw [List.map_cons, List.toFinset_cons, Finset.union_insert, Finset.insert_union]
      refine ⟨t, early ++ late, Traced.bind_eq_ok.mpr ⟨(), u, early, late, arrived, completed, rfl⟩,
        ?_, ?_⟩
      · rwa [both]
      · rw [both, ← second, EQPacketStream.expectedPackets_append, first, ← List.append_assoc,
          ← List.map_append, InOrder.range_append, Nat.add_sub_cancel' grows]

/-- Whatever the order of the arrivals and however often a packet comes, the packets are handed on
in the order in which they were sent, each once; and after each arrival the longest prefix that
was received is delivered and the rest is cached.
-/
theorem delivered_of_arrivals (context : StreamContext) (fills : FillsBuffer context.uncompress)
    (start : EQPacketStream) (empty : start.cache = .empty) (first : start.arqSeqExp = 0)
    (depth : Nat) (h : SenderHistory context start depth) (arrivals : List (IPHeader × Nat))
    (admissible : h.Admissible ∅ arrivals) (passes : ∀ copy ∈ arrivals, h.Passes copy)
    (fuel : Nat) (deep : depth < fuel) (enough : start.arqSeqGiveUp.toNat ≤ fuel)
    : ∀ sofar later, arrivals = sofar ++ later →
        ∃ t w,
          EQPacketStream.run context fuel (sofar.map h.arrival) start = .ok ((), t, w)
            ∧ h.Delivered (sofar.map Prod.snd).toFinset t w := by
  rintro sofar later rfl
  have tracks : h.Tracks ∅ start := {
    session := rfl
    sent := fun i member => absurd member (Finset.notMem_empty i)
    near := by simp
    expects := by
      rw [InOrder.firstMissing_empty]
      exact first
    cached := by simp [empty]
    fragment := by simp
  }
  obtain ⟨t, w, completed, final, delivered⟩ :=
    tracks.run fills admissible.of_append
      (fun copy member => passes copy (List.mem_append_left later member)) deep enough
  rw [Finset.empty_union] at final delivered
  exact ⟨t, w, completed, by simpa using delivered, final.expects, final.cached⟩

/-- Three packets with a message each. -/
def threeMessages (i : Nat) : Bytes :=
  sequencedDatagram 0x09 (ofIndex i) [0x05, 0x06, UInt8.ofNat i] 7

/-- What a stream with session key 7 is sent. -/
def keyedHistory : SenderHistory EQPacketStream.alone EQPacketStream.keyedStream 1 where
  count := 3
  datagram := threeMessages
  packet i := .ofDatagram (threeMessages i)
  udp := by decide +kernel
  valid := by decide +kernel
  decoded := by decide +kernel
  numbered := by decide +kernel
  plain := by decide +kernel

/-- The last packet comes first, the first one twice. -/
def shuffled : List (IPHeader × Nat) :=
  [2, 0, 0, 1].map fun i => (EQPacketStream.serverHeader, i)

theorem admissible_shuffled : keyedHistory.Admissible ∅ shuffled := by
  have few (received : Finset Nat) (small : received.card < 32)
      : (heldBack received).card < EQPacketStream.keyedStream.arqSeqGiveUp.toNat :=
    (InOrder.card_heldBack_le received).trans_lt small
  have nearby (received : Finset Nat) (next i : Nat) (below : ∀ j < next, j ∈ received)
      (missing : next ∉ received) (near : i ≤ next + 1023 ∧ next ≤ i + 1023)
      : i ≤ firstMissing received + 1023 ∧ firstMissing received ≤ i + 1023 := by
    rwa [InOrder.firstMissing_eq below missing]
  exact ⟨few ∅ (by decide), by decide, nearby ∅ 0 2 (by decide) (by decide) (by decide),
    few {2} (by decide), by decide, nearby {2} 0 0 (by decide) (by decide) (by decide),
    few {0, 2} (by decide), by decide, nearby {0, 2} 1 0 (by decide) (by decide) (by decide),
    few {0, 0, 2} (by decide), by decide,
    nearby {0, 0, 2} 1 1 (by decide) (by decide) (by decide),
    few {1, 0, 0, 2} (by decide)⟩

theorem passes_shuffled : ∀ copy ∈ shuffled, keyedHistory.Passes copy := by
  have gates
      : ∀ copy ∈ shuffled,
          EQPacketStream.keyedStream.latchedElsewhere copy.1 = false
            ∧ ((EQProtocolPacket.ofDatagram (keyedHistory.datagram copy.2)).hasCRC
              && (EQPacketStream.isIgnoredPort copy.1.sourcePort
                || EQPacketStream.isIgnoredPort copy.1.destPort)) = false := by
    decide +kernel
  exact fun copy member => ⟨by decide, (gates copy member).1, (gates copy member).2⟩

theorem fillsBuffer_alone : FillsBuffer EQPacketStream.alone.uncompress := by
  intro deflated size inflated done
  cases done

theorem delivered_of_arrivals_shuffled
    : ∃ t w,
        EQPacketStream.run EQPacketStream.alone 50 (shuffled.map keyedHistory.arrival)
            EQPacketStream.keyedStream
            = .ok ((), t, w)
          ∧ keyedHistory.Delivered (shuffled.map Prod.snd).toFinset t w :=
  delivered_of_arrivals EQPacketStream.alone fillsBuffer_alone
    EQPacketStream.keyedStream rfl rfl 1 keyedHistory shuffled admissible_shuffled passes_shuffled
    50 (by decide) (by decide) shuffled [] (List.append_nil _).symm

/-- A stream of a session without a key. -/
def keylessStream : EQPacketStream := { EQPacketStream.boxStream with maxLength := 512 }

/-- One packet with a checksum for key zero. -/
def keylessHistory : SenderHistory EQPacketStream.alone keylessStream 1 where
  count := 1
  datagram _ := sequencedDatagram 0x09 0 [0x05, 0x06, 0x01] 0
  packet _ := .ofDatagram (sequencedDatagram 0x09 0 [0x05, 0x06, 0x01] 0)
  udp := by decide +kernel
  valid := by decide +kernel
  decoded := by decide +kernel
  numbered := by decide +kernel
  plain := by decide +kernel

/-- Without a session key the stream takes nothing but session packets, valid as a packet may
be.
-/
theorem not_delivered_of_arrivals
    : ¬ ∀ (context : StreamContext), FillsBuffer context.uncompress →
        ∀ start : EQPacketStream, start.cache = .empty → start.arqSeqExp = 0 →
        ∀ (depth : Nat) (h : SenderHistory context start depth) (arrivals : List (IPHeader × Nat)),
          h.Admissible ∅ arrivals →
          ∀ fuel, depth < fuel → start.arqSeqGiveUp.toNat ≤ fuel →
          ∀ sofar later, arrivals = sofar ++ later →
            ∃ t w,
              EQPacketStream.run context fuel (sofar.map h.arrival) start = .ok ((), t, w)
                ∧ h.Delivered (sofar.map Prod.snd).toFinset t w := by
  intro delivers
  have few (received : Finset Nat) (small : received.card < 32)
      : (heldBack received).card < keylessStream.arqSeqGiveUp.toNat :=
    (InOrder.card_heldBack_le received).trans_lt small
  obtain ⟨t, w, run, delivered⟩ := delivers EQPacketStream.alone
    fillsBuffer_alone keylessStream rfl rfl 1 keylessHistory
    [(EQPacketStream.serverHeader, 0)]
    ⟨few ∅ (by decide), by decide, by simp, few {0} (by decide)⟩ 50 (by decide) (by decide)
    [(EQPacketStream.serverHeader, 0)] [] rfl
  have dropped
      : EQPacketStream.run EQPacketStream.alone 50
          ([(EQPacketStream.serverHeader, 0)].map keylessHistory.arrival) keylessStream
        = .ok ((), keylessStream, []) := by
    decide +kernel
  rw [dropped] at run
  cases run
  have one : firstMissing ([(EQPacketStream.serverHeader, 0)].map Prod.snd).toFinset = 1 :=
    InOrder.firstMissing_eq (by decide) (by decide)
  have handed := delivered.delivered
  rw [one] at handed
  exact List.cons_ne_nil _ _ handed.symm

end SenderHistory
end Scry
