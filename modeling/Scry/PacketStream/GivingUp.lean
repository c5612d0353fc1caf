import Mathlib.Data.List.TakeWhile
import Scry.Library.InOrder
import Scry.Library.Serial
import Scry.PacketStream.Delivery

/-! Giving up on missing packets: which numbers `processCache` passes over, and what it delivers
then. The cache is ordered by the plain number, the stream expects numbers going round.
-/

namespace Scry
namespace EQPacketStream

open Serial (numbersFrom)

variable {context : StreamContext} {s : EQPacketStream}

/-- The numbers in the order in which the stream expects them, once around. -/
def upcoming (s : EQPacketStream) : List UInt16 := numbersFrom s.arqSeqExp 65536

/-- The expected numbers up to the nearest one that is cached, without it. -/
def missingNumbers (s : EQPacketStream) : List UInt16 :=
  s.upcoming.takeWhile (· ∉ s.cache.keys)

/-- The nearest cached number, and those right behind it that are cached as well. -/
def deliverableNumbers (s : EQPacketStream) : List UInt16 :=
  (s.upcoming.dropWhile (· ∉ s.cache.keys)).takeWhile (· ∈ s.cache.keys)

/-- The packets that are cached under numbers. -/
def packetsAt (s : EQPacketStream) (numbers : List UInt16) : List EQProtocolPacket :=
  numbers.filterMap s.cache.find?

/-- Each packet in the cache is a sequenced one, under its own number. -/
def CachesSequenced (s : EQPacketStream) : Prop :=
  ∀ seq packet, s.cache.find? seq = some packet → packet.hasArqSeq = true ∧ packet.arqSeq = seq

/-- Each packet in the cache passes the checksum test. -/
def CachesValid (s : EQPacketStream) : Prop :=
  ∀ seq packet, s.cache.find? seq = some packet → packet.passesCRC s.sessionKey = true

-----------------------------------------------------------------------------------------
-- What a cache holds in every run
-----------------------------------------------------------------------------------------

theorem cachesSequenced_of_empty (empty : s.cache = .empty) : s.CachesSequenced := by
  intro seq packet entry
  rw [empty] at entry
  exact absurd entry (Option.some_ne_none _).symm

theorem CachesSequenced.stored {packet : EQProtocolPacket} (sequenced : s.CachesSequenced)
    (numbered : packet.hasArqSeq = true)
    : (s.stored packet.arqSeq packet).CachesSequenced := by
  intro seq other entry
  change (s.cache.insert packet.arqSeq packet.copy).find? seq = some other at entry
  rw [OrderedMap.find?_insert] at entry
  split_ifs at entry with same
  · obtain rfl := Option.some.inj entry
    rw [EQProtocolPacket.hasArqSeq, EQProtocolPacket.copy_netOp, EQProtocolPacket.copy_arqSeq]
    exact ⟨numbered, same.symm⟩
  · exact sequenced seq other entry

theorem CachesSequenced.erased {t : EQPacketStream} {seq : UInt16} (sequenced : s.CachesSequenced)
    (cache : t.cache = s.cache.erase seq)
    : t.CachesSequenced := by
  intro other packet entry
  rw [cache, OrderedMap.find?_erase] at entry
  split_ifs at entry
  exact sequenced other packet entry

theorem PacketStep.cachesSequenced {t : EQPacketStream} {w : List StreamEvent}
    (step : PacketStep context s w t) (sequenced : s.CachesSequenced)
    : t.CachesSequenced := by
  cases step with
  | inserted inserts => exact sequenced.stored inserts.1.1
  | replaced replaces => exact sequenced.stored replaces.1.1
  | disconnected | closed => exact cachesSequenced_of_empty rfl
  | _ => exact sequenced

theorem Step.cachesSequenced {t : EQPacketStream} {w : List StreamEvent}
    (step : Step context s w t) (sequenced : s.CachesSequenced)
    : t.CachesSequenced := by
  cases step with
  | packet step => exact step.cachesSequenced sequenced
  | replayed | dropped => exact sequenced.erased rfl
  | keyed =>
      rw [receiveSessionKey]
      split <;> exact sequenced
  | closed => exact cachesSequenced_of_empty rfl
  | skipped | replaying => exact sequenced

/-- In every run of a new stream, each packet in the cache is a sequenced one under its number. -/
theorem run_cachesSequenced {fuel : Nat} {streamid : EQStreamID} {dir : UInt8}
    {arqSeqGiveUp : UInt16} {sessionTracking : Bool} {arrivals : List Arrival} {t : EQPacketStream}
    {w : List StreamEvent}
    (completed
      : run context fuel arrivals (fresh streamid dir arqSeqGiveUp sessionTracking)
        = .ok ((), t, w))
    : t.CachesSequenced := by
  have fresh : (fresh streamid dir arqSeqGiveUp sessionTracking).CachesSequenced :=
    cachesSequenced_of_empty rfl
  obtain ⟨steps, -⟩ := run_steps rfl completed
  clear completed
  induction steps with
  | refl => exact fresh
  | tail _ last ih => exact last.cachesSequenced ih

theorem add_ofNat_succ (seq : UInt16) (n : Nat)
    : seq + UInt16.ofNat (n + 1) = seq + 1 + UInt16.ofNat n := by
  rw [UInt16.ofNat_add, UInt16.add_comm (UInt16.ofNat n), ← UInt16.add_assoc]
  rfl

-----------------------------------------------------------------------------------------
-- Skipping
-----------------------------------------------------------------------------------------

/-- From a number that is cached on, `rest` of the `count` numbers are left, and the others were
skipped.
-/
structure SkipsTo (s : EQPacketStream) (count : Nat) (exp : UInt16) (rest : Nat)
    (w : List StreamEvent)
    : Prop where
  cached : exp ∈ s.cache.keys
  fewer : rest ≤ count
  behind : (numbersFrom s.arqSeqExp count).dropWhile (· ∉ s.cache.keys) = numbersFrom exp rest
  skipped : skippedNumbers w = (numbersFrom s.arqSeqExp count).takeWhile (· ∉ s.cache.keys)
  next : exp
    = s.arqSeqExp
      + UInt16.ofNat ((numbersFrom s.arqSeqExp count).takeWhile (· ∉ s.cache.keys)).length
  expected : expectedPackets w = []
  freed : freedNumbers w = []

/-- What is missing up to the nearest cached number is skipped, by induction on how many numbers
there are up to one that is cached.
-/
theorem skipMissing_skips {count steps : Nat} (enough : count < steps)
    (cached : ∃ seq ∈ numbersFrom s.arqSeqExp count, seq ∈ s.cache.keys)
    : ∃ exp rest w,
        skipMissing steps s = .ok ((), { s with arqSeqExp := exp }, w)
          ∧ s.SkipsTo count exp rest w := by
  induction count generalizing s steps with
  | zero =>
      obtain ⟨seq, member, -⟩ := cached
      exact absurd member List.not_mem_nil
  | succ count ih =>
      obtain ⟨steps, rfl⟩ : ∃ n, steps = n + 1 := ⟨steps - 1, by omega⟩
      simp only [skipMissing, Traced.get_bind_run]
      cases found : s.cache.find? s.arqSeqExp with
      | some packet =>
          have here : s.arqSeqExp ∈ s.cache.keys := OrderedMap.mem_keys_iff.mpr ⟨packet, found⟩
          refine ⟨s.arqSeqExp, count + 1, [], rfl, here, le_rfl, ?_, ?_, ?_, rfl, rfl⟩
          · rw [numbersFrom, List.dropWhile_cons_of_neg (by simpa using here)]
          · rw [numbersFrom, List.takeWhile_cons_of_neg (by simpa using here)]
            rfl
          · rw [numbersFrom, List.takeWhile_cons_of_neg (by simpa using here)]
            exact (UInt16.add_zero _).symm
      | none =>
          have missing : s.arqSeqExp ∉ s.cache.keys := OrderedMap.find?_eq_none_iff.mp found
          have later : ∃ seq ∈ numbersFrom s.advanced.arqSeqExp count, seq ∈ s.cache.keys := by
            obtain ⟨seq, member, key⟩ := cached
            rcases List.mem_cons.mp member with rfl | behind
            · exact absurd key missing
            · exact ⟨seq, behind, key⟩
          obtain ⟨exp, rest, w, run, skips⟩ :=
            ih (s := s.advanced) (Nat.lt_of_succ_lt_succ enough) later
          refine ⟨exp, rest, .skipping s :: w, ?_, skips.cached,
            skips.fewer.trans (Nat.le_succ count), ?_, ?_, ?_, skips.expected, skips.freed⟩
          · exact Traced.bind_eq_ok.mpr ⟨(), s, [.skipping s], w, Traced.emit_run _ s,
              (Traced.modify_bind_run _ _ s).trans run, rfl⟩
          · rw [numbersFrom, List.dropWhile_cons_of_pos (by simpa using missing)]
            exact skips.behind
          · rw [numbersFrom, List.takeWhile_cons_of_pos (by simpa using missing)]
            exact congrArg _ skips.skipped
          · rw [numbersFrom, List.takeWhile_cons_of_pos (by simpa using missing), List.length_cons,
              add_ofNat_succ]
            exact skips.next

-----------------------------------------------------------------------------------------
-- One delivery
-----------------------------------------------------------------------------------------

/-- Where `processCache`'s iterator comes to when it leaves a number. -/
def positionBehind (cache : OrderedMap UInt16 EQProtocolPacket) (seq : UInt16) : Option UInt16 :=
  if seq + 1 = 0 then (cache.erase seq).first? else cache.next? seq

variable {cache : OrderedMap UInt16 EQProtocolPacket} {seq other : UInt16}

/-- The iterator comes to the number behind, if that is cached. At the end of the numbers it
needs the front of the cache for it.
-/
theorem positionBehind_eq (cached : seq + 1 ∈ (cache.erase seq).keys)
    : positionBehind cache seq = some (seq + 1) := by
  have key : seq + 1 ∈ cache.keys := (OrderedMap.mem_keys_erase.mp cached).2
  rw [positionBehind]
  split_ifs with wraps
  · rw [OrderedMap.first?_eq_some_iff]
    refine ⟨cached, fun other _ => ?_⟩
    rw [wraps]
    exact UInt16.zero_le
  · have step : (seq + 1).toNat = seq.toNat + 1 := by
      have unwrapped : (seq + 1).toNat ≠ 0 := fun zero => wraps (UInt16.toNat_inj.mp zero)
      rw [UInt16.toNat_add, UInt16.toNat_one] at unwrapped ⊢
      have bound := seq.toNat_lt
      omega
    rw [OrderedMap.next?_eq_some_iff]
    refine ⟨⟨key, ?_⟩, fun other _ above => ?_⟩
    · rw [UInt16.lt_iff_toNat_lt]
      omega
    · rw [UInt16.lt_iff_toNat_lt] at above
      rw [UInt16.le_iff_toNat_le]
      omega

/-- The iterator comes to another entry, or to the end. -/
theorem mem_keys_of_positionBehind (position : positionBehind cache seq = some other)
    : other ∈ (cache.erase seq).keys := by
  rw [positionBehind] at position
  split_ifs at position with wraps
  · exact (OrderedMap.first?_eq_some_iff.mp position).1
  · obtain ⟨key, above⟩ := OrderedMap.mem_keys_of_next? position
    exact OrderedMap.mem_keys_erase.mpr ⟨ne_of_gt above, key⟩

/-- The stream behind a delivery from its cache. -/
def delivered (s : EQPacketStream) (packet : EQProtocolPacket) : EQPacketStream :=
  { s.took packet with cache := s.cache.erase s.arqSeqExp, replaying := none }

/-- The packet under the expected number is delivered and its entry freed. -/
theorem replay_delivers (context : StreamContext) {depth fuel : Nat} {packet : EQProtocolPacket}
    (expects : s.Expects packet)
    (plain : ∀ item ∈ s.fragment.contentOf packet, item.isPlain depth = true)
    (deep : depth < fuel)
    : ∃ w,
        replay context fuel s.arqSeqExp packet s
            = .ok (positionBehind s.cache s.arqSeqExp, s.delivered packet, w)
          ∧ expectedPackets w = [packet]
          ∧ skippedNumbers w = []
          ∧ freedNumbers w = [s.arqSeqExp] := by
  let inside : EQPacketStream := { s with replaying := some s.arqSeqExp }
  have reached : inside.Expects packet := expects
  obtain ⟨w, processed, expected, skipped, freed⟩ :=
    processPacket_expected context none reached plain deep
  refine ⟨_, replay_eq_ok.mpr ⟨_, _, processed, deletePacket_notMem freed _, rfl, rfl, rfl⟩,
    ?_, ?_, ?_⟩
  · rw [expectedPackets_append, expected]
    rfl
  · rw [skippedNumbers_append, skipped]
    rfl
  · rw [freedNumbers_append, freed]
    rfl

theorem CachesValid.delivered (valid : s.CachesValid) (packet : EQProtocolPacket)
    : (s.delivered packet).CachesValid := by
  intro seq other entry
  change (s.cache.erase s.arqSeqExp).find? seq = some other at entry
  rw [OrderedMap.find?_erase] at entry
  split_ifs at entry
  exact valid seq other entry

-----------------------------------------------------------------------------------------
-- Delivering the followers
-----------------------------------------------------------------------------------------

/-- All cached numbers are among the `count` next ones, and the iterator stands at the expected
one if that is cached.
-/
structure Following (s : EQPacketStream) (position : Option UInt16) (count : Nat) : Prop where
  round : count ≤ 65536
  near : ∀ seq ∈ s.cache.keys, seq ∈ numbersFrom s.arqSeqExp count
  found : s.arqSeqExp ∈ s.cache.keys → position = some s.arqSeqExp
  cached : ∀ seq, position = some seq → seq ∈ s.cache.keys

theorem Following.delivered {position : Option UInt16} {count : Nat} {packet : EQProtocolPacket}
    (following : s.Following position (count + 1))
    : (s.delivered packet).Following (positionBehind s.cache s.arqSeqExp) count where
  round := (Nat.le_succ count).trans following.round
  near seq member := by
    obtain ⟨ne, key⟩ := OrderedMap.mem_keys_erase.mp member
    exact (List.mem_cons.mp (following.near seq key)).resolve_left ne
  found := positionBehind_eq
  cached _ := mem_keys_of_positionBehind

/-- The next cached numbers without a gap. -/
def runNumbers (s : EQPacketStream) (count : Nat) : List UInt16 :=
  (numbersFrom s.arqSeqExp count).takeWhile (· ∈ s.cache.keys)

theorem runNumbers_of_notMem {count : Nat} (missing : s.arqSeqExp ∉ s.cache.keys)
    : s.runNumbers count = [] := by
  cases count with
  | zero => rfl
  | succ count => rw [runNumbers, numbersFrom, List.takeWhile_cons_of_neg (by simpa using missing)]

theorem runNumbers_ne_nil {count : Nat} (cached : s.arqSeqExp ∈ s.cache.keys)
    (near : s.arqSeqExp ∈ numbersFrom s.arqSeqExp count)
    : s.runNumbers count ≠ [] := by
  cases count with
  | zero => exact absurd near List.not_mem_nil
  | succ count =>
      rw [runNumbers, numbersFrom, List.takeWhile_cons_of_pos (by simpa using cached)]
      exact List.cons_ne_nil _ _

/-- Behind a delivery the run goes on as it did. -/
theorem runNumbers_delivered {count : Nat} (round : count < 65536) (packet : EQProtocolPacket)
    (cached : s.arqSeqExp ∈ s.cache.keys)
    : s.runNumbers (count + 1) = s.arqSeqExp :: (s.delivered packet).runNumbers count := by
  have behind : ∀ seq ∈ numbersFrom (s.arqSeqExp + 1) count, seq ≠ s.arqSeqExp :=
    fun seq member same => Serial.notMem_numbersFrom_succ round (same ▸ member)
  rw [runNumbers, numbersFrom, List.takeWhile_cons_of_pos (by simpa using cached)]
  refine congrArg _ (InOrder.takeWhile_congr fun seq member => ?_)
  rw [decide_eq_decide]
  exact ((and_iff_right (behind seq member)).symm.trans OrderedMap.mem_keys_erase.symm)

/-- What the loop over followers did with the numbers of a run. -/
structure Delivers (s t : EQPacketStream) (w : List StreamEvent) (numbers : List UInt16)
    : Prop where
  expected : expectedPackets w = s.packetsAt numbers
  skipped : skippedNumbers w = []
  freed : freedNumbers w = numbers
  next : t.arqSeqExp = s.arqSeqExp + UInt16.ofNat numbers.length
  left : ∀ seq, t.cache.find? seq = if seq ∈ numbers then none else s.cache.find? seq
  state : t = (s.packetsAt numbers).foldl EQPacketStream.delivered s

/-- Where the expected number is not cached, nothing is delivered. -/
theorem follow_stops {fuel steps : Nat} {position : Option UInt16}
    (sequenced : s.CachesSequenced) (missing : s.arqSeqExp ∉ s.cache.keys)
    (cached : ∀ seq, position = some seq → seq ∈ s.cache.keys)
    : follow context fuel (steps + 1) position s = .ok ((), s, []) := by
  cases position with
  | none => rfl
  | some seq =>
      obtain ⟨packet, entry⟩ := OrderedMap.mem_keys_iff.mp (cached seq rfl)
      have passed : packet.arqSeq ≠ s.arqSeqExp := by
        rw [(sequenced seq packet entry).2]
        rintro rfl
        exact missing (cached _ rfl)
      simp only [follow, Traced.get_bind_run, entry, ne_eq, passed, not_false_eq_true, if_true,
        Traced.pure_run]

theorem delivers_nil : s.Delivers s [] [] :=
  ⟨rfl, rfl, rfl, (UInt16.add_zero _).symm, fun _ => (if_neg List.not_mem_nil).symm, rfl⟩

/-- The packets behind a delivery are those that were there before it. -/
theorem packetsAt_delivered {numbers : List UInt16} (packet : EQProtocolPacket)
    (keys : ∀ seq ∈ numbers, seq ≠ s.arqSeqExp)
    : (s.delivered packet).packetsAt numbers = s.packetsAt numbers :=
  List.filterMap_congr fun seq member => OrderedMap.find?_erase_of_ne s.cache (keys seq member)

/-- A delivery and those behind it are the deliveries of the whole run. -/
theorem Delivers.cons {t : EQPacketStream} {early late : List StreamEvent}
    {packet : EQProtocolPacket} {numbers : List UInt16}
    (entry : s.cache.find? s.arqSeqExp = some packet)
    (expected : expectedPackets early = [packet]) (skipped : skippedNumbers early = [])
    (freed : freedNumbers early = [s.arqSeqExp]) (keys : ∀ seq ∈ numbers, seq ≠ s.arqSeqExp)
    (rest : (s.delivered packet).Delivers t late numbers)
    : s.Delivers t (early ++ late) (s.arqSeqExp :: numbers) where
  expected := by
    rw [expectedPackets_append, expected, rest.expected, packetsAt_delivered packet keys, packetsAt,
      packetsAt, List.filterMap_cons_some entry]
    rfl
  skipped := by rw [skippedNumbers_append, skipped, rest.skipped, List.append_nil]
  freed := by rw [freedNumbers_append, freed, rest.freed, List.singleton_append]
  next := by
    rw [rest.next, List.length_cons, add_ofNat_succ]
    rfl
  left seq := by
    rw [rest.left]
    change (if seq ∈ numbers then none else (s.cache.erase s.arqSeqExp).find? seq) = _
    rw [OrderedMap.find?_erase]
    by_cases here : seq = s.arqSeqExp
    · simp [here]
    · simp [here]
  state := by
    rw [rest.state, packetsAt_delivered packet keys, packetsAt, packetsAt,
      List.filterMap_cons_some entry]
    rfl

/-- The loop delivers the cached packets from the expected one on up to the first gap, by
induction on how many numbers the cached ones are among.
-/
theorem follow_delivers {depth fuel count steps : Nat} {position : Option UInt16}
    (deep : depth < fuel) (sequenced : s.CachesSequenced) (valid : s.CachesValid)
    (following : s.Following position count)
    (plain : s.fragment.takesPlain depth (s.packetsAt (s.runNumbers count)) = true)
    (enough : s.cache.size < steps)
    : ∃ t w,
        follow context fuel steps position s = .ok ((), t, w)
          ∧ s.Delivers t w (s.runNumbers count) := by
  induction count generalizing s steps position with
  | zero =>
      have missing : s.arqSeqExp ∉ s.cache.keys :=
        fun key => absurd (following.near _ key) List.not_mem_nil
      obtain ⟨steps, rfl⟩ : ∃ n, steps = n + 1 := ⟨steps - 1, by omega⟩
      exact ⟨s, [], follow_stops sequenced missing following.cached, delivers_nil⟩
  | succ count ih =>
      obtain ⟨steps, rfl⟩ : ∃ n, steps = n + 1 := ⟨steps - 1, by omega⟩
      by_cases cached : s.arqSeqExp ∈ s.cache.keys
      · obtain ⟨packet, entry⟩ := OrderedMap.mem_keys_iff.mp cached
        obtain ⟨numbered, name⟩ := sequenced _ _ entry
        have run := runNumbers_delivered following.round packet cached
        have keys : ∀ seq ∈ (s.delivered packet).runNumbers count, seq ≠ s.arqSeqExp := by
          intro seq member
          have key := List.mem_takeWhile_imp member
          exact (OrderedMap.mem_keys_erase.mp (of_decide_eq_true key)).1
        have same := packetsAt_delivered packet keys
        rw [run, packetsAt, List.filterMap_cons_some entry,
          EQPacketFragmentSequence.takesPlain_cons] at plain
        obtain ⟨early, replayed, expected, skipped, freed⟩ :=
          replay_delivers context ⟨numbered, name⟩ plain.1 deep
        have smaller := OrderedMap.size_erase entry
        obtain ⟨t, late, followed, delivers⟩ :=
          ih (sequenced.erased rfl) (valid.delivered packet) following.delivered
            (same ▸ plain.2) (show (s.cache.erase s.arqSeqExp).size < steps by omega)
        refine ⟨t, early ++ late, ?_, run ▸ delivers.cons entry expected skipped freed keys⟩
        rw [following.found cached]
        simp only [follow, Traced.get_bind_run, entry, name, ne_eq, not_true_eq_false, if_false,
          valid _ _ entry, if_true]
        exact Traced.bind_eq_ok.mpr ⟨_, _, early, late, replayed, followed, rfl⟩
      · rw [runNumbers_of_notMem cached]
        exact ⟨s, [], follow_stops sequenced cached following.cached, delivers_nil⟩

-----------------------------------------------------------------------------------------
-- Giving up
-----------------------------------------------------------------------------------------

/-- The stream gave up on the missing numbers, and then delivered the nearest packet of the
cache and its immediate successors.
-/
structure GivesUp (s t : EQPacketStream) (skips follows : List StreamEvent) : Prop where
  skipped : skippedNumbers skips = s.missingNumbers
  first : expectedPackets skips = [] ∧ freedNumbers skips = []
  delivered : expectedPackets follows = s.packetsAt s.deliverableNumbers
  freed : freedNumbers follows = s.deliverableNumbers
  done : skippedNumbers follows = []
  nearest : s.deliverableNumbers ≠ []
  next : t.arqSeqExp
    = s.arqSeqExp + UInt16.ofNat s.missingNumbers.length
      + UInt16.ofNat s.deliverableNumbers.length
  left : ∀ seq, t.cache.find? seq
    = if seq ∈ s.deliverableNumbers then none else s.cache.find? seq

/-- Behind the skipped numbers the iterator stands at the expected one, and all that is cached
lies ahead.
-/
theorem SkipsTo.following {exp : UInt16} {rest : Nat} {w : List StreamEvent}
    (skips : s.SkipsTo 65536 exp rest w)
    : ({ s with arqSeqExp := exp } : EQPacketStream).Following (some exp) rest where
  round := skips.fewer
  near seq key := by
    have met := Serial.mem_numbersFrom_round s.arqSeqExp seq
    rw [← List.takeWhile_append_dropWhile (p := (· ∉ s.cache.keys)) (l := numbersFrom _ _),
      List.mem_append, skips.behind] at met
    refine met.resolve_left fun missing => ?_
    have gone : seq ∉ s.cache.keys := by simpa using List.mem_takeWhile_imp missing
    exact gone key
  found _ := rfl
  cached seq position := Option.some.inj position ▸ skips.cached

/-- A stream that gives up passes over exactly the numbers up to the nearest cached one, and
delivers that packet and its cached successors in order.
-/
theorem processCache_givesUp (context : StreamContext) (s : EQPacketStream) (depth fuel : Nat)
    (nonempty : s.cache.isEmpty = false) (many : s.arqSeqGiveUp.toNat ≤ s.cache.size)
    (sequenced : s.CachesSequenced) (valid : s.CachesValid)
    (plain : s.fragment.takesPlain depth (s.packetsAt s.deliverableNumbers) = true)
    (deep : depth < fuel) (enough : s.cache.size < fuel)
    : ∃ t skips follows,
        processCache context fuel s = .ok ((), t, skips ++ follows)
          ∧ s.GivesUp t skips follows := by
  obtain ⟨seq, key⟩ : ∃ seq, seq ∈ s.cache.keys := by
    by_contra missing
    rw [OrderedMap.isEmpty_iff.mpr fun seq key => missing ⟨seq, key⟩] at nonempty
    exact Bool.noConfusion nonempty
  obtain ⟨exp, rest, skips, skipped, skipsTo⟩ :=
    @skipMissing_skips s 65536 (skipBound + 1) (Nat.lt_succ_self _)
      ⟨seq, Serial.mem_numbersFrom_round _ seq, key⟩
  let u : EQPacketStream := { s with arqSeqExp := exp }
  have same : s.deliverableNumbers = u.runNumbers rest :=
    congrArg (List.takeWhile _) skipsTo.behind
  rw [same] at plain
  obtain ⟨t, follows, followed, delivers⟩ :=
    @follow_delivers context u depth fuel rest fuel (some exp) deep sequenced valid
      skipsTo.following plain enough
  obtain ⟨packet, entry⟩ := OrderedMap.mem_keys_iff.mp skipsTo.cached
  have here : (u.cache.find? u.arqSeqExp).isSome = true := Option.isSome_of_eq_some entry
  refine ⟨t, skips, follows, processCache_eq_ok.mpr ⟨u, skips, follows, ?_, ?_, rfl⟩, ?_⟩
  · rw [Traced.when_pos many]
    exact skipped
  · rw [if_pos here]
    exact followed
  · exact {
      skipped := skipsTo.skipped
      first := ⟨skipsTo.expected, skipsTo.freed⟩
      delivered := same ▸ delivers.expected
      freed := same ▸ delivers.freed
      done := delivers.skipped
      nearest := same ▸ runNumbers_ne_nil skipsTo.cached (skipsTo.following.near _ skipsTo.cached)
      next := by
        rw [same, delivers.next]
        exact congrArg (· + _) skipsTo.next
      left := same ▸ delivers.left
    }

/-- A stream that gives up at three packets, expects packet 65530 and has cached three others: the
last one there is, and the two behind it.
-/
def wrappingStream : EQPacketStream :=
  let packet (seq : UInt16) := EQProtocolPacket.ofDatagram
    (sequencedDatagram 0x09 seq [0x05, 0x06, 0x01] 7)
  { fresh .zone2client DIR_Server 3 false with
    sessionKey := 7
    arqSeqExp := 65530
    cache :=
      ((OrderedMap.empty.insert 1 (packet 1)).insert 65535 (packet 65535)).insert 0 (packet 0) }

/-- It passes over five numbers and delivers the packets 65535, 0 and 1. -/
theorem processCache_givesUp_wrapping
    : wrappingStream.missingNumbers = [65530, 65531, 65532, 65533, 65534]
      ∧ wrappingStream.deliverableNumbers = [65535, 0, 1]
      ∧ ∃ t skips follows,
          processCache alone 10 wrappingStream = .ok ((), t, skips ++ follows)
            ∧ wrappingStream.GivesUp t skips follows := by
  have entries
      : ∀ entry ∈ wrappingStream.cache.entries,
          (entry.2.hasArqSeq = true ∧ entry.2.arqSeq = entry.1)
            ∧ entry.2.passesCRC wrappingStream.sessionKey = true := by
    decide +kernel
  refine ⟨by decide +kernel, by decide +kernel, ?_⟩
  exact processCache_givesUp alone wrappingStream 1 10 (by decide +kernel) (by decide +kernel)
    (fun seq packet entry => (entries _ (OrderedMap.find?_eq_some_iff.mp entry)).1)
    (fun seq packet entry => (entries _ (OrderedMap.find?_eq_some_iff.mp entry)).2)
    (by decide +kernel) (by decide) (by decide +kernel)

end EQPacketStream
end Scry
