import Scry.PacketStream.Steps

/-! Who frees a cached packet.
`processCache` holds on to an entry while the packets inside it are processed. A disconnect
among them frees the whole cache, and a sequenced packet under the entry's own number
replaces it; nothing else touches the entry.
-/

namespace Scry
namespace EQPacketStream

variable {context : StreamContext}

/-- The visited packet neither clears the cache nor replaces the entry. -/
def SparesEntry (seq : UInt16) : StreamEvent → Prop
  | .processing s packet => ¬ s.Disconnects packet ∧ ¬ (s.Replaces packet ∧ packet.arqSeq = seq)
  | _ => True

instance (seq : UInt16) : DecidablePred (SparesEntry seq)
  | .processing _ _ => inferInstanceAs (Decidable (_ ∧ _))
  | .advancing _ | .skipping _ | .dispatchPacket _ | .fragmentCopy _ | .completedOversized _
  | .sessionKey _ _ _ | .closing _ _ | .deletePacket _ => isTrue trivial

/-- The entry is in the cache, unchanged, at every packet processed on its behalf and at the
end, and is freed once: by `processCache`, behind everything its processing recorded.
-/
structure OwnedBy (seq : UInt16) (packet : EQProtocolPacket) (w : List StreamEvent)
    (t : EQPacketStream)
    : Prop where
  throughout : ∀ s inner, .processing s inner ∈ w → s.cache.find? seq = some packet
  atEnd : t.cache.find? seq = some packet
  freedOnce
    : (w ++ [StreamEvent.deletePacket seq]).count (StreamEvent.deletePacket seq) = 1

-----------------------------------------------------------------------------------------
-- Freeing an entry
-----------------------------------------------------------------------------------------

/-- Fragment events neither visit a packet nor free one. -/
theorem fragmentEvents_cases {s : EQPacketStream} {packet : EQProtocolPacket} {e : StreamEvent}
    (member : e ∈ s.fragmentEvents packet)
    : (∃ write, e = .fragmentCopy write) ∨ ∃ message, e = .completedOversized message := by
  simp only [fragmentEvents, List.mem_append, List.mem_map] at member
  rcases member with ⟨write, _, rfl⟩ | completed
  · exact Or.inl ⟨write, rfl⟩
  · split at completed
    · exact Or.inr ⟨_, List.mem_singleton.mp completed⟩
    · cases completed

/-- A disconnect is not sequenced, and a sequenced packet is not expected and replaced. -/
theorem sparesEntry_of_expects {s : EQPacketStream} {packet : EQProtocolPacket} (seq : UInt16)
    (expects : s.Expects packet)
    : SparesEntry seq (.processing s packet) := by
  refine ⟨fun disconnects => ?_, fun replaces => replaces.1.1.2.1 expects.2⟩
  exact (not_session_of_hasArqSeq expects.1).2.2 disconnects.1

/-- Of two session kinds a packet is at most one, and it is not sequenced. -/
theorem sparesEntry_of_session (s : EQPacketStream) {packet : EQProtocolPacket} (seq : UInt16)
    {kind : UInt16} (netOp : packet.netOp = kind) (other : kind ≠ OP_SessionDisconnect)
    (unsequenced : kind ≠ OP_Packet ∧ kind ≠ OP_Oversized)
    : SparesEntry seq (.processing s packet) := by
  refine ⟨fun disconnects => other (netOp.symm.trans disconnects.1), ?_⟩
  rintro ⟨⟨⟨sequenced, _⟩, _⟩, _⟩
  simp [EQProtocolPacket.hasArqSeq, netOp, unsequenced.1, unsequenced.2] at sequenced

/-- A step frees a cached entry exactly when the packet it visits does not spare it. -/
theorem PacketStep.kept_iff {s t : EQPacketStream} {w : List StreamEvent} {seq : UInt16}
    {packet : EQProtocolPacket} (step : PacketStep context s w t)
    (entry : s.cache.find? seq = some packet)
    : .deletePacket seq ∉ w ↔ ∀ e ∈ w, SparesEntry seq e := by
  have freed : .deletePacket seq ∈ s.freeing :=
    List.mem_map.mpr ⟨seq, OrderedMap.mem_keys_iff.mpr ⟨packet, entry⟩, rfl⟩
  cases step with
  | visit idle =>
      refine iff_of_true (by simp) ?_
      rintro e (_ | ⟨_, ⟨⟩⟩)
      exact ⟨idle.not_disconnect, fun replaces => idle.not_replaced replaces.1⟩
  | dispatch call => simp [SparesEntry]
  | expected kind next =>
      have spares := sparesEntry_of_expects seq (expects_of_netOp (Or.inl kind) next)
      simpa using spares
  | fragment kind next =>
      have spares := sparesEntry_of_expects seq (expects_of_netOp (Or.inr kind) next)
      refine iff_of_true ?_ ?_
      · intro member
        rcases List.mem_cons.mp member with impossible | member
        · cases impossible
        · rcases fragmentEvents_cases member with ⟨_, impossible⟩ | ⟨_, impossible⟩ <;>
            cases impossible
      · intro e member
        rcases List.mem_cons.mp member with rfl | member
        · exact spares
        · rcases fragmentEvents_cases member with ⟨_, rfl⟩ | ⟨_, rfl⟩ <;> trivial
  | emptied => simp
  | inserted inserts =>
      refine iff_of_true (by simp) ?_
      rintro e (_ | ⟨_, ⟨⟩⟩)
      refine ⟨fun disconnects => ?_, fun replaces => replaces.1.2.1 inserts.2⟩
      exact (not_session_of_hasArqSeq inserts.1.1).2.2 disconnects.1
  | replaced replaces =>
      rename_i stored
      have notDisconnect : ¬ s.Disconnects stored :=
        fun disconnects => (not_session_of_hasArqSeq replaces.1.1).2.2 disconnects.1
      simp [SparesEntry, notDisconnect, replaces, eq_comm]
  | requested requests =>
      have spares := sparesEntry_of_session s seq requests.1 (by decide) (by decide)
      simpa using spares
  | responded responds =>
      have spares := sparesEntry_of_session s seq responds.1 (by decide) (by decide)
      simpa [SparesEntry] using spares
  | latch => simp
  | disconnected disconnects =>
      refine iff_of_false (fun kept => kept (List.mem_cons_of_mem _ freed)) ?_
      exact fun spares => (spares _ List.mem_cons_self).1 disconnects
  | closing => simp [SparesEntry]
  | closed => simp

/-- Along a chain an entry is freed exactly when a visited packet does not spare it, by
induction on the steps: as long as it is not freed, it is still there.
-/
theorem PacketSteps.kept_iff {s t : EQPacketStream} {w : List StreamEvent} {seq : UInt16}
    {packet : EQProtocolPacket} (steps : PacketSteps context s w t)
    (entry : s.cache.find? seq = some packet)
    : .deletePacket seq ∉ w ↔ ∀ e ∈ w, SparesEntry seq e := by
  induction steps with
  | refl => simp
  | tail steps last ih =>
      rw [List.mem_append, not_or, List.forall_mem_append, ih]
      constructor
      · rintro ⟨spared, kept⟩
        have still := PacketSteps.find?_eq steps (ih.mpr spared) entry
        exact ⟨spared, (last.kept_iff still).mp kept⟩
      · rintro ⟨spared, spares⟩
        have still := PacketSteps.find?_eq steps (ih.mpr spared) entry
        exact ⟨spared, (last.kept_iff still).mpr spares⟩

/-- A step visits its packet in the stream it starts from. -/
theorem PacketStep.visited {s t u : EQPacketStream} {w : List StreamEvent}
    {inner : EQProtocolPacket} (step : PacketStep context s w t)
    (member : .processing u inner ∈ w)
    : u = s := by
  cases step with
  | fragment =>
      rcases List.mem_cons.mp member with same | member
      · cases same
        rfl
      · rcases fragmentEvents_cases member with ⟨_, impossible⟩ | ⟨_, impossible⟩ <;>
          cases impossible
  | disconnected =>
      rcases List.mem_cons.mp member with same | member
      · cases same
        rfl
      · simp [freeing] at member
  | _ => simp_all

/-- An entry that is not freed is found by every packet on the way. -/
theorem PacketSteps.find?_visited {s t u : EQPacketStream} {w : List StreamEvent}
    {seq : UInt16} {packet inner : EQProtocolPacket} (steps : PacketSteps context s w t)
    (kept : .deletePacket seq ∉ w) (entry : s.cache.find? seq = some packet)
    (member : .processing u inner ∈ w)
    : u.cache.find? seq = some packet := by
  induction steps with
  | refl => cases member
  | tail steps last ih =>
      rw [List.mem_append, not_or] at kept
      rcases List.mem_append.mp member with early | late
      · exact ih kept.1 early
      · rw [last.visited late]
        exact PacketSteps.find?_eq steps kept.1 entry

/-- While the packet of a cached entry is processed, the entry stays what it is and is left
for `processCache` to free, if and only if no packet processed on its behalf is a disconnect
the stream acts on or a replacement under the entry's number.
-/
theorem replayed_entry_owned_iff (context : StreamContext) (fuel : Nat) {s t : EQPacketStream}
    {seq : UInt16} {packet : EQProtocolPacket} {w : List StreamEvent}
    (entry : s.cache.find? seq = some packet)
    (run : processPacket context fuel packet none s = .ok ((), t, w))
    : OwnedBy seq packet w t ↔ ∀ e ∈ w, SparesEntry seq e := by
  have steps := processPacket_steps run
  rw [← steps.kept_iff entry]
  constructor
  · intro owned member
    have once := owned.freedOnce
    have positive := List.count_pos_iff.mpr member
    rw [List.count_append, List.count_singleton_self] at once
    omega
  · intro kept
    refine ⟨fun u inner => steps.find?_visited kept entry, steps.find?_eq kept entry, ?_⟩
    rw [List.count_append, List.count_eq_zero_of_not_mem kept, List.count_singleton_self]

/-- `processCache` finds its entry freed exactly when the processing of it completed and
some packet did not spare it; the processing itself never gets that far.
-/
theorem replay_dangling {fuel : Nat} {s t : EQPacketStream} {seq : UInt16}
    {packet : EQProtocolPacket} {w : List StreamEvent} (entry : s.cache.find? seq = some packet)
    (run
      : processPacket context fuel packet none { s with replaying := some seq }
        = .ok ((), t, w))
    : replay context fuel seq packet s = .error .danglingEntry
      ↔ ¬ ∀ e ∈ w, SparesEntry seq e := by
  have kept := (processPacket_steps run).kept_iff entry
  have observed := Traced.listen_eq_ok.mpr ⟨run, rfl⟩
  simp only [replay, Traced.modify_bind_run]
  rw [Traced.bind_run_ok observed, ← kept]
  by_cases freed : .deletePacket seq ∈ w
  · simp [freed]
  · simp [freed, Traced.emit_bind_run]

-----------------------------------------------------------------------------------------
-- The ledger of stored and freed packets
-----------------------------------------------------------------------------------------

/-- The visited packet is stored under the number. -/
def storesUnder (seq : UInt16) : StreamEvent → Bool
  | .processing s packet =>
      decide ((s.Inserts packet ∨ s.Replaces packet) ∧ packet.arqSeq = seq)
  | _ => false

/-- How many packets the cache holds under the number. -/
def held (s : EQPacketStream) (seq : UInt16) : Nat := if seq ∈ s.cache.keys then 1 else 0

/-- What is held and what comes in is freed or still held. -/
def Balanced (seq : UInt16) (s : EQPacketStream) (w : List StreamEvent) (t : EQPacketStream)
    : Prop :=
  s.held seq + w.countP (storesUnder seq) = w.count (.deletePacket seq) + t.held seq

theorem balanced_of_cache_eq {seq : UInt16} {s t : EQPacketStream} {w : List StreamEvent}
    (cache : t.cache = s.cache) (none : w.countP (storesUnder seq) = 0)
    (kept : .deletePacket seq ∉ w)
    : Balanced seq s w t := by
  simp [Balanced, held, cache, none, List.count_eq_zero_of_not_mem kept]

/-- Freeing the whole cache frees each entry once, as the keys are distinct. -/
theorem count_freeing (s : EQPacketStream) (seq : UInt16)
    : s.freeing.count (.deletePacket seq) = s.held seq := by
  have injective : Function.Injective StreamEvent.deletePacket := by
    intro left right same
    cases same
    rfl
  have distinct : s.freeing.Nodup := s.cache.keys_nodup.map injective
  have same : .deletePacket seq ∈ s.freeing ↔ seq ∈ s.cache.keys :=
    List.mem_map_of_injective injective
  rw [held]
  split
  · rename_i member
    exact List.count_eq_one_of_mem distinct (same.mpr member)
  · rename_i absent
    exact List.count_eq_zero_of_not_mem (mt same.mp absent)

theorem countP_storesUnder_freeing (s : EQPacketStream) (seq : UInt16)
    : s.freeing.countP (storesUnder seq) = 0 := by
  rw [List.countP_eq_zero]
  intro e member
  obtain ⟨_, _, rfl⟩ := List.mem_map.mp member
  simp [storesUnder]

/-- A step that empties the cache balances by freeing all of it. -/
theorem balanced_freeing {seq : UInt16} {s t : EQPacketStream} (empty : t.cache = .empty)
    : Balanced seq s s.freeing t := by
  simp [Balanced, count_freeing, countP_storesUnder_freeing, held, empty]

/-- Erasing an entry balances by freeing it. -/
theorem balanced_erase {seq erased : UInt16} {s t : EQPacketStream} {packet : EQProtocolPacket}
    (entry : s.cache.find? erased = some packet) (cache : t.cache = s.cache.erase erased)
    : Balanced seq s [.deletePacket erased] t := by
  have member : erased ∈ s.cache.keys := OrderedMap.mem_keys_iff.mpr ⟨packet, entry⟩
  by_cases same : seq = erased
  · subst same
    simp [Balanced, storesUnder, held, cache, member]
  · have other : StreamEvent.deletePacket erased ≠ .deletePacket seq := by
      simpa using fun h => same h.symm
    simp [Balanced, storesUnder, held, cache, same, other]

/-- An event in front that neither stores nor frees leaves the balance. -/
theorem Balanced.cons {seq : UInt16} {s t : EQPacketStream} {w : List StreamEvent}
    {e : StreamEvent} (balanced : Balanced seq s w t) (stores : storesUnder seq e = false)
    (frees : e ≠ .deletePacket seq)
    : Balanced seq s (e :: w) t := by
  simpa [Balanced, stores, List.count_cons, frees] using balanced

/-- Storing a packet adds to what is held under its number and to no other. -/
theorem held_stored (s : EQPacketStream) (packet : EQProtocolPacket) (seq : UInt16)
    : (s.stored packet.arqSeq packet).held seq
      = if packet.arqSeq = seq then 1 else s.held seq := by
  have keys : seq ∈ (s.stored packet.arqSeq packet).cache.keys
      ↔ seq = packet.arqSeq ∨ seq ∈ s.cache.keys :=
    OrderedMap.mem_keys_insert
  by_cases same : packet.arqSeq = seq
  · rw [held, if_pos (keys.mpr (Or.inl same.symm)), if_pos same]
  · have other : seq ≠ packet.arqSeq := fun h => same h.symm
    simp [held, keys, same, other]

/-- A packet that is neither inserted nor replaces an entry stores nothing. -/
theorem storesUnder_of_not {s : EQPacketStream} {packet : EQProtocolPacket} {seq : UInt16}
    (awaited : ¬ s.Awaits packet)
    : storesUnder seq (.processing s packet) = false := by
  simp [storesUnder, Inserts, Replaces, awaited]

theorem not_awaits_of_expects {s : EQPacketStream} {packet : EQProtocolPacket}
    (expects : s.Expects packet)
    : ¬ s.Awaits packet :=
  fun awaits => awaits.2.1 expects.2

/-- A packet of a session kind is not awaited. -/
theorem not_awaits_of_session {s : EQPacketStream} {packet : EQProtocolPacket} {kind : UInt16}
    (netOp : packet.netOp = kind) (unsequenced : kind ≠ OP_Packet ∧ kind ≠ OP_Oversized)
    : ¬ s.Awaits packet := by
  rintro ⟨sequenced, _⟩
  simp [EQProtocolPacket.hasArqSeq, netOp, unsequenced.1, unsequenced.2] at sequenced

theorem PacketStep.balanced {s t : EQPacketStream} {w : List StreamEvent}
    (step : PacketStep context s w t) (seq : UInt16)
    : Balanced seq s w t := by
  have quiet {u : EQPacketStream} (cache : u.cache = s.cache) : Balanced seq s [] u :=
    balanced_of_cache_eq cache rfl (by simp)
  cases step with
  | visit idle =>
      refine (quiet rfl).cons ?_ (by simp)
      simp [storesUnder, idle.not_inserted, idle.not_replaced]
  | dispatch => exact (quiet rfl).cons rfl (by simp)
  | expected kind next =>
      have expects := expects_of_netOp (Or.inl kind) next
      exact (quiet rfl).cons (storesUnder_of_not (not_awaits_of_expects expects)) (by simp)
  | fragment kind next =>
      rename_i packet
      have expects := expects_of_netOp (Or.inr kind) next
      have events : Balanced seq s (s.fragmentEvents packet) (s.fragmented packet) := by
        refine balanced_of_cache_eq rfl ?_ ?_
        · rw [List.countP_eq_zero]
          intro e member
          rcases fragmentEvents_cases member with ⟨_, rfl⟩ | ⟨_, rfl⟩ <;> simp [storesUnder]
        · intro member
          rcases fragmentEvents_cases member with ⟨_, impossible⟩ | ⟨_, impossible⟩ <;>
            cases impossible
      exact events.cons (storesUnder_of_not (not_awaits_of_expects expects)) (by simp)
  | emptied => exact quiet rfl
  | inserted inserts =>
      rename_i packet
      have absent : s.held packet.arqSeq = 0 := by
        simp [held, OrderedMap.mem_keys_iff, inserts.2]
      by_cases same : packet.arqSeq = seq
      · subst same
        simp [Balanced, storesUnder, inserts, held_stored, absent]
      · simp [Balanced, storesUnder, held_stored, same]
  | replaced replaces =>
      rename_i packet
      obtain ⟨old, found⟩ := Option.ne_none_iff_exists'.mp replaces.2.1
      have present : s.held packet.arqSeq = 1 := by
        simp [held, OrderedMap.mem_keys_iff, found]
      by_cases same : packet.arqSeq = seq
      · subst same
        simp [Balanced, storesUnder, replaces, held_stored, present]
      · have other : StreamEvent.deletePacket packet.arqSeq ≠ .deletePacket seq := by
          simpa using same
        simp [Balanced, storesUnder, held_stored, same, other]
  | requested requests =>
      exact (quiet rfl).cons (storesUnder_of_not (not_awaits_of_session requests.1 (by decide)))
        (by simp)
  | responded responds =>
      refine Balanced.cons ((quiet rfl).cons rfl (by simp)) ?_ (by simp)
      exact storesUnder_of_not (not_awaits_of_session responds.1 (by decide))
  | latch => exact quiet rfl
  | disconnected disconnects =>
      have freed : Balanced seq s s.freeing { s with arqSeqExp := 0, cache := .empty } :=
        balanced_freeing rfl
      exact freed.cons (storesUnder_of_not (not_awaits_of_session disconnects.1 (by decide)))
        (by simp)
  | closing => exact (quiet rfl).cons rfl (by simp)
  | closed empty => exact quiet (by simp [cleared, empty])

theorem Step.balanced {s t : EQPacketStream} {w : List StreamEvent} (step : Step context s w t)
    (seq : UInt16)
    : Balanced seq s w t := by
  cases step with
  | packet step => exact step.balanced seq
  | skipped => exact balanced_of_cache_eq rfl (by simp [storesUnder]) (by simp)
  | replaying => exact balanced_of_cache_eq rfl (by simp) (by simp)
  | replayed atEntry entry => exact (balanced_erase entry rfl).cons rfl (by simp)
  | dropped outside entry => exact balanced_erase entry rfl
  | keyed =>
      refine balanced_of_cache_eq ?_ (by simp) (by simp)
      unfold receiveSessionKey
      split <;> rfl
  | closed => exact balanced_freeing rfl

/-- Over every run of a new stream that does not fault, each stored packet has been freed
once or is in the cache, by induction on the steps.
-/
theorem run_balanced {fuel : Nat} {arrivals : List Arrival} {s t : EQPacketStream}
    {w : List StreamEvent} (outside : s.replaying = none)
    (completed : run context fuel arrivals s = .ok ((), t, w)) (seq : UInt16)
    : Balanced seq s w t := by
  have steps := (run_steps outside completed).1
  clear completed outside
  induction steps with
  | refl => simp [Balanced]
  | tail _ last ih =>
      have balanced := last.balanced seq
      unfold Balanced at ih balanced ⊢
      rw [List.countP_append, List.count_append]
      omega

-----------------------------------------------------------------------------------------
-- A disconnect inside a cached packet
-----------------------------------------------------------------------------------------

/-- A stream at number 1 with session key 7 and one entry under that number. -/
def cachedStream (payload : Bytes) : EQPacketStream :=
  { boxStream with sessionKey := 7, arqSeqExp := 1 }.stored 1
    (.ofDatagram (sequencedDatagram 0x09 1 payload 7))

/-- A message, behind an `OP_Packet`. -/
def plainPayload : Bytes := [0x05, 0x06, 0x01]

/-- An `OP_SessionDisconnect`, behind an `OP_Packet`. -/
def disconnectPayload : Bytes := [0x00, 0x05, 0, 0, 0, 0, 9, 0, 0, 0, 0]

/-- The entry of the stream above. -/
def cachedEntry (payload : Bytes) : EQProtocolPacket :=
  (EQProtocolPacket.ofDatagram (sequencedDatagram 0x09 1 payload 7)).copy

theorem find?_cachedStream (payload : Bytes)
    : (cachedStream payload).cache.find? 1 = some (cachedEntry payload) :=
  OrderedMap.find?_insert_self _ _ _

theorem replayed_entry_owned_plain
    : ∃ t w, processPacket alone 5 (cachedEntry plainPayload) none (cachedStream plainPayload)
          = .ok ((), t, w)
        ∧ OwnedBy 1 (cachedEntry plainPayload) w t := by
  obtain ⟨t, w, run, checked⟩ := Traced.exists_of_endsIn
    (processPacket alone 5 (cachedEntry plainPayload) none (cachedStream plainPayload))
    (fun _ w => decide (∀ e ∈ w, SparesEntry 1 e))
    (by decide +kernel)
  exact ⟨t, w, run, (replayed_entry_owned_iff alone 5 (find?_cachedStream plainPayload) run).mpr
    (of_decide_eq_true checked)⟩

/-- The stream frees the entry it is processing; three datagrams bring it there. -/
theorem replayed_entry_owned_disconnect
    : (∃ t w, processPacket alone 5 (cachedEntry disconnectPayload) none
            (cachedStream disconnectPayload)
          = .ok ((), t, w)
        ∧ ¬ OwnedBy 1 (cachedEntry disconnectPayload) w t)
      ∧ run alone 9
          [responseArrival, sequencedArrival 0x09 1 disconnectPayload, messageArrival 0] boxStream
        = .error .danglingEntry := by
  refine ⟨?_, ?_⟩
  · obtain ⟨t, w, run, checked⟩ := Traced.exists_of_endsIn
      (processPacket alone 5 (cachedEntry disconnectPayload) none
        (cachedStream disconnectPayload))
      (fun t _ => decide (t.cache.find? 1 = none))
      (by decide +kernel)
    refine ⟨t, w, run, fun owned => ?_⟩
    have gone := of_decide_eq_true checked
    rw [owned.atEnd] at gone
    cases gone
  · decide +kernel

end EQPacketStream
end Scry
