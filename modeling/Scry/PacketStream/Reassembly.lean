import Mathlib.Data.List.Chain
import Scry.PacketStream.CacheOwnership

/-! What a completed oversized message is made of.
Only the expected number says which fragment is next, so a message is whole as long as that
number moves with the fragments alone while one is under way.
-/

namespace Scry

namespace EQPacketFragmentSequence

/-- A message is under way: some of it is there and some of it is missing. -/
def Partial (f : EQPacketFragmentSequence) : Prop :=
  0 < f.dataSize ∧ f.dataSize < f.totalLength.toNat

instance (f : EQPacketFragmentSequence) : Decidable f.Partial :=
  inferInstanceAs (Decidable (_ ∧ _))

/-- The data of a first fragment, behind the total it declares. -/
def firstData (packet : EQProtocolPacket) : Bytes :=
  readBytes (packet.payload.drop 4) (packet.payloadLength - 4).toNat

theorem not_partial_reset (f : EQPacketFragmentSequence) : ¬ f.reset.Partial :=
  fun partly => Nat.lt_irrefl 0 partly.1

theorem not_isComplete_reset (f : EQPacketFragmentSequence) : ¬ f.reset.isComplete := by
  simp [isComplete]

theorem isComplete_iff (f : EQPacketFragmentSequence)
    : f.isComplete = true ↔ f.dataSize ≠ 0 ∧ f.totalLength.toNat = f.dataSize := by
  simp [isComplete]

end EQPacketFragmentSequence

namespace EQPacketStream

open EQPacketFragmentSequence (Opens declaredTotal firstData)

variable {context : StreamContext}

/-- A packet that was processed, with the stream that found it. -/
structure Visit where
  before : EQPacketStream
  packet : EQProtocolPacket

def Visit.event (v : Visit) : StreamEvent := .processing v.before v.packet

/-- The fragments were visited in this order, each when it was next in line and each one
number after the one before it; the first was taken as a first fragment and declares the
total, and the bytes are their data.
-/
structure Assembled (h : List StreamEvent) (first : Visit) (more : List Visit) (total : Nat)
    (bytes : Bytes)
    : Prop where
  visited : ((first :: more).map Visit.event).Sublist h
  taken
    : ∀ v ∈ first :: more,
        v.packet.netOp = OP_Oversized ∧ v.packet.arqSeq = v.before.arqSeqExp
  consecutive
    : (first :: more).IsChain fun v next => next.packet.arqSeq = v.packet.arqSeq + 1
  opened : first.before.fragment.dataSize = 0 ∧ Opens first.packet
  declared : (declaredTotal first.packet).toNat = total
  content : bytes = firstData first.packet ++ more.flatMap (·.packet.payloadBytes)

/-- Every completed message was assembled by then, to the length its first fragment declares. -/
def WholeMessages (w : List StreamEvent) : Prop :=
  ∀ before message after, w = before ++ .completedOversized message :: after →
    ∃ first more, Assembled before first more message.length message

/-- The step does not move the expected number past a message under way, and brings a
completed message no empty fragment.
-/
def SparesPartial : StreamEvent → Prop
  | .processing s packet =>
      (packet.netOp = OP_Packet ∧ packet.arqSeq = s.arqSeqExp → ¬ s.fragment.Partial)
        ∧ (packet.netOp = OP_Oversized
            ∧ packet.arqSeq = s.arqSeqExp
            ∧ s.fragment.isComplete = true
          → packet.payloadLength ≠ 0)
        ∧ (Requests packet ∨ Responds packet ∨ s.Disconnects packet
          → s.arqSeqExp = 0 ∨ ¬ s.fragment.Partial)
  | .skipping s => ¬ s.fragment.Partial
  | _ => True

instance : DecidablePred SparesPartial
  | .processing _ _ => inferInstanceAs (Decidable (_ ∧ _ ∧ _))
  | .skipping _ => inferInstanceAs (Decidable (¬ _))
  | .advancing _ | .dispatchPacket _ | .fragmentCopy _ | .completedOversized _
  | .sessionKey _ _ _ | .closing _ _ | .deletePacket _ => isTrue trivial

/-- Messages completed so far are whole, and a message under way is assembled from fragments
of which the last one came just before the expected number.
-/
structure Reassembling (h : List StreamEvent) (s : EQPacketStream) : Prop where
  whole : WholeMessages h
  underWay
    : s.fragment.Partial →
        ∃ first more total bytes,
          Assembled h first more total bytes
            ∧ s.fragment.Buffers total bytes
            ∧ ∀ v ∈ (first :: more).getLast?, s.arqSeqExp = v.packet.arqSeq + 1

-----------------------------------------------------------------------------------------
-- Histories
-----------------------------------------------------------------------------------------

theorem Assembled.mono {h later : List StreamEvent} {first : Visit} {more : List Visit}
    {total : Nat} {bytes : Bytes} (assembled : Assembled h first more total bytes)
    (longer : h.Sublist later)
    : Assembled later first more total bytes :=
  { assembled with visited := assembled.visited.trans longer }

/-- A first fragment by itself. -/
theorem assembled_first {s : EQPacketStream} {packet : EQProtocolPacket} (h : List StreamEvent)
    (kind : packet.netOp = OP_Oversized) (next : packet.arqSeq = s.arqSeqExp)
    (empty : s.fragment.dataSize = 0) (opens : Opens packet)
    : Assembled (h ++ [.processing s packet]) ⟨s, packet⟩ [] (declaredTotal packet).toNat
        (firstData packet) where
  visited := List.sublist_append_right h _
  taken := by
    intro v member
    rw [List.mem_singleton.mp member]
    exact ⟨kind, next⟩
  consecutive := List.isChain_singleton _
  opened := ⟨empty, opens⟩
  declared := rfl
  content := by simp

/-- One more fragment, one number after the last. -/
theorem Assembled.snoc {h : List StreamEvent} {first : Visit} {more : List Visit} {total : Nat}
    {bytes : Bytes} {s : EQPacketStream} {packet : EQProtocolPacket}
    (assembled : Assembled h first more total bytes) (kind : packet.netOp = OP_Oversized)
    (next : packet.arqSeq = s.arqSeqExp)
    (follows : ∀ v ∈ (first :: more).getLast?, s.arqSeqExp = v.packet.arqSeq + 1)
    : Assembled (h ++ [.processing s packet]) first (more ++ [⟨s, packet⟩]) total
        (bytes ++ packet.payloadBytes) where
  visited := by
    rw [← List.cons_append, List.map_append]
    exact assembled.visited.append (List.Sublist.refl _)
  taken := by
    intro v member
    rw [← List.cons_append, List.mem_append] at member
    rcases member with earlier | last
    · exact assembled.taken v earlier
    · rw [List.mem_singleton.mp last]
      exact ⟨kind, next⟩
  consecutive := by
    rw [← List.cons_append, List.isChain_append]
    refine ⟨assembled.consecutive, List.isChain_singleton _, ?_⟩
    intro v last w head
    cases head
    exact next.trans (follows v last)
  opened := assembled.opened
  declared := assembled.declared
  content := by simp [assembled.content]

theorem wholeMessages_nil : WholeMessages [] := by
  intro before message after split
  cases before <;> cases split

/-- Events that complete nothing leave the completed messages whole. -/
theorem WholeMessages.append {h w : List StreamEvent} (whole : WholeMessages h)
    (quiet : ∀ message, .completedOversized message ∉ w)
    : WholeMessages (h ++ w) := by
  intro before message after split
  rcases List.append_eq_append_iff.mp split with ⟨rest, rfl, late⟩ | ⟨rest, early, late⟩
  · exact (quiet message (by simp [late])).elim
  · cases rest with
    | nil =>
        cases late
        exact absurd List.mem_cons_self (quiet message)
    | cons e rest =>
        cases late
        exact whole before message rest early

/-- A message completed from what was assembled is whole. -/
theorem WholeMessages.completed {h : List StreamEvent} (whole : WholeMessages h)
    {first : Visit} {more : List Visit} {message : Bytes}
    (assembled : Assembled h first more message.length message)
    : WholeMessages (h ++ [.completedOversized message]) := by
  intro before other after split
  rcases List.append_eq_append_iff.mp split with ⟨rest, rfl, late⟩ | ⟨rest, early, late⟩
  · cases rest with
    | nil =>
        cases late
        exact ⟨first, more, by simpa using assembled⟩
    | cons e rest => simp at late
  · cases rest with
    | nil =>
        cases late
        exact ⟨first, more, by simpa [early] using assembled⟩
    | cons e rest =>
        cases late
        exact whole before other rest early

-----------------------------------------------------------------------------------------
-- What a step does to a message under way
-----------------------------------------------------------------------------------------

/-- A step that leaves no message under way. -/
theorem Reassembling.settle {h w : List StreamEvent} {s t : EQPacketStream}
    (before : Reassembling h s) (quiet : ∀ message, .completedOversized message ∉ w)
    (settled : ¬ t.fragment.Partial)
    : Reassembling (h ++ w) t :=
  ⟨before.whole.append quiet, fun partly => absurd partly settled⟩

/-- A step that leaves the buffer alone may only move the expected number when no message is
under way.
-/
theorem Reassembling.frame {h w : List StreamEvent} {s t : EQPacketStream}
    (before : Reassembling h s) (quiet : ∀ message, .completedOversized message ∉ w)
    (fragment : t.fragment = s.fragment)
    (keeps : t.arqSeqExp = s.arqSeqExp ∨ ¬ s.fragment.Partial)
    : Reassembling (h ++ w) t := by
  rcases keeps with number | settled
  · refine ⟨before.whole.append quiet, ?_⟩
    rw [fragment, number]
    intro partly
    obtain ⟨first, more, total, bytes, assembled, buffers, follows⟩ := before.underWay partly
    exact ⟨first, more, total, bytes, assembled.mono (List.sublist_append_left h w), buffers,
      follows⟩
  · exact before.settle quiet (by rwa [fragment])

/-- Whatever an expected fragment leaves under way or complete is assembled up to it. A
continuation of a message that is not under way overfills it, as it is not empty.
-/
theorem Reassembling.fragment_assembled {h : List StreamEvent} {s : EQPacketStream}
    {packet : EQProtocolPacket} (before : Reassembling h s)
    (kind : packet.netOp = OP_Oversized) (next : packet.arqSeq = s.arqSeqExp)
    (spares : SparesPartial (.processing s packet))
    (present
      : (s.fragmented packet).fragment.Partial
        ∨ (s.fragmented packet).fragment.isComplete = true)
    : ∃ first more total bytes,
        Assembled (h ++ [.processing s packet]) first more total bytes
          ∧ (s.fragmented packet).fragment.Buffers total bytes
          ∧ (first :: more).getLast? = some ⟨s, packet⟩ := by
  rcases s.fragment.addFragment_cases packet with
    ⟨_, _, result⟩ | ⟨empty, opens, _⟩ | ⟨_, _, result⟩ | ⟨started, room, result⟩
  · simp only [fragmented, result] at present
    exact absurd present
      (not_or.mpr ⟨s.fragment.not_partial_reset, s.fragment.not_isComplete_reset⟩)
  · exact ⟨⟨s, packet⟩, [], _, _, assembled_first h kind next empty opens,
      EQPacketFragmentSequence.buffers_addFirst empty opens, rfl⟩
  · simp only [fragmented, result] at present
    exact absurd present
      (not_or.mpr ⟨s.fragment.not_partial_reset, s.fragment.not_isComplete_reset⟩)
  · by_cases partly : s.fragment.Partial
    · obtain ⟨first, more, total, bytes, assembled, buffers, follows⟩ := before.underWay partly
      refine ⟨first, more ++ [⟨s, packet⟩], total, bytes ++ packet.payloadBytes,
        assembled.snoc kind next follows, buffers.addNext started room, ?_⟩
      rw [← List.cons_append, List.getLast?_concat]
    · exfalso
      have overfull : s.fragment.totalLength.toNat ≤ s.fragment.dataSize :=
        Nat.not_lt.mp fun short => partly ⟨Nat.pos_of_ne_zero started, short⟩
      simp only [fragmented, result] at present
      rcases present with ⟨_, short⟩ | complete
      · simp only at short
        omega
      · obtain ⟨_, exact⟩ := (EQPacketFragmentSequence.isComplete_iff _).mp complete
        simp only at exact
        have empty : packet.payloadLength.toNat = 0 := by omega
        have whole : s.fragment.isComplete = true :=
          (s.fragment.isComplete_iff).mpr ⟨started, by omega⟩
        exact spares.2.1 ⟨kind, next, whole⟩ (UInt32.toNat_inj.mp empty)

/-- An expected fragment keeps messages whole, the one it completes included. -/
theorem Reassembling.fragment {h : List StreamEvent} {s : EQPacketStream}
    {packet : EQProtocolPacket} (before : Reassembling h s)
    (kind : packet.netOp = OP_Oversized) (next : packet.arqSeq = s.arqSeqExp)
    (spares : SparesPartial (.processing s packet))
    : Reassembling (h ++ .processing s packet :: s.fragmentEvents packet)
        (s.fragmented packet) := by
  have present := before.fragment_assembled kind next spares
  have events : s.fragmentEvents packet
      = (s.fragment.addFragment packet).2.toList.map StreamEvent.fragmentCopy
        ++ if (s.fragmented packet).fragment.isComplete then
            [.completedOversized
              (readBytes (s.fragmented packet).fragment.data
                (s.fragmented packet).fragment.dataSize)]
          else [] := rfl
  have copied
      : WholeMessages
          (h ++ .processing s packet
            :: (s.fragment.addFragment packet).2.toList.map StreamEvent.fragmentCopy) :=
    before.whole.append (by simp)
  have later (rest : List StreamEvent) : (h ++ [StreamEvent.processing s packet]).Sublist
      (h ++ StreamEvent.processing s packet :: rest) :=
    (List.Sublist.refl h).append ((List.nil_sublist rest).cons_cons _)
  constructor
  · rw [events]
    split
    · rename_i complete
      obtain ⟨first, more, total, bytes, assembled, buffers, _⟩ := present (Or.inr complete)
      have length := (buffers.isComplete_iff.mp complete).2
      rw [buffers.readBytes, ← List.cons_append, ← List.append_assoc]
      subst length
      exact copied.completed (assembled.mono (later _))
    · rw [List.append_nil]
      exact copied
  · intro partly
    obtain ⟨first, more, total, bytes, assembled, buffers, last⟩ := present (Or.inl partly)
    refine ⟨first, more, total, bytes, assembled.mono (later _), buffers, ?_⟩
    rw [last]
    intro v same
    cases same
    exact congrArg (· + 1) next.symm

theorem PacketStep.reassembling {h w : List StreamEvent} {s t : EQPacketStream}
    (step : PacketStep context s w t) (spares : ∀ e ∈ w, SparesPartial e)
    (before : Reassembling h s)
    : Reassembling (h ++ w) t := by
  cases step with
  | expected kind next =>
      have spared := spares _ List.mem_cons_self
      exact before.frame (by simp) rfl (Or.inr (spared.1 ⟨kind, next⟩))
  | fragment kind next => exact before.fragment kind next (spares _ List.mem_cons_self)
  | emptied => exact before.settle (by simp) (s.fragment.not_partial_reset)
  | requested requests =>
      have spared := spares _ List.mem_cons_self
      exact before.frame (by simp) rfl ((spared.2.2 (Or.inl requests)).imp_left Eq.symm)
  | responded responds =>
      have spared := spares _ List.mem_cons_self
      refine before.frame (by simp) rfl ?_
      exact (spared.2.2 (Or.inr (Or.inl responds))).imp_left Eq.symm
  | disconnected disconnects =>
      have spared := spares _ List.mem_cons_self
      refine before.frame (by simp [freeing]) rfl ?_
      exact (spared.2.2 (Or.inr (Or.inr disconnects))).imp_left Eq.symm
  | closed empty => exact before.settle (by simp) (s.fragment.not_partial_reset)
  | _ => exact before.frame (by simp) rfl (Or.inl rfl)

theorem Step.reassembling {h w : List StreamEvent} {s t : EQPacketStream}
    (step : Step context s w t) (spares : ∀ e ∈ w, SparesPartial e)
    (before : Reassembling h s)
    : Reassembling (h ++ w) t := by
  cases step with
  | packet step => exact step.reassembling spares before
  | skipped => exact before.frame (by simp) rfl (Or.inr (spares _ List.mem_cons_self))
  | keyed sessionId streamid key =>
      refine before.frame (by simp) ?_ (Or.inl ?_) <;>
        · unfold receiveSessionKey
          split <;> rfl
  | closed => exact before.settle (by simp [freeing]) (s.fragment.not_partial_reset)
  | _ => exact before.frame (by simp) rfl (Or.inl rfl)

/-- In every run of a new stream whose steps spare messages under way, each message is
completed from fragments with consecutive numbers, and to the total the first one declares.
-/
theorem completed_whole (context : StreamContext) (streamid : EQStreamID) (dir : UInt8)
    (arqSeqGiveUp : UInt16) (sessionTracking : Bool) (fuel : Nat) (arrivals : List Arrival)
    {t : EQPacketStream} {w : List StreamEvent}
    (completed
      : run context fuel arrivals (fresh streamid dir arqSeqGiveUp sessionTracking)
        = .ok ((), t, w))
    (spares : ∀ e ∈ w, SparesPartial e)
    : WholeMessages w := by
  have steps := (run_steps rfl completed).1
  have start : Reassembling [] (fresh streamid dir arqSeqGiveUp sessionTracking) :=
    ⟨wholeMessages_nil, fun partly => absurd partly.1 (Nat.lt_irrefl 0)⟩
  exact (steps.invariant (fun h s w t step => step.reassembling) spares start).whole

/-- The first fragment of a message of seven bytes, of which it brings two. -/
def firstArrival : Arrival := sequencedArrival 0x0d 0 [0, 0, 0, 7, 0x05, 0x06]

/-- The other five bytes of that message. -/
def lastArrival : Arrival := sequencedArrival 0x0d 1 [1, 2, 3, 4, 5]

theorem completed_whole_pair
    : ∃ t w, run alone 9 [responseArrival, firstArrival, lastArrival] boxStream
          = .ok ((), t, w)
        ∧ .completedOversized [0x05, 0x06, 1, 2, 3, 4, 5] ∈ w
        ∧ WholeMessages w := by
  obtain ⟨t, w, completed, checked⟩ := Traced.exists_of_endsIn
    (run alone 9 [responseArrival, firstArrival, lastArrival] boxStream)
    (fun _ w => decide (.completedOversized [0x05, 0x06, 1, 2, 3, 4, 5] ∈ w
      ∧ ∀ e ∈ w, SparesPartial e))
    (by decide +kernel)
  obtain ⟨member, spares⟩ := of_decide_eq_true checked
  exact ⟨t, w, completed, member,
    completed_whole alone .zone2client DIR_Server 32 false 9 _ completed spares⟩

-----------------------------------------------------------------------------------------
-- Giving up on a fragment
-----------------------------------------------------------------------------------------

/-- The fragment an event takes. -/
def takenFragment : StreamEvent → Option EQProtocolPacket
  | .processing s packet =>
      if packet.netOp = OP_Oversized ∧ packet.arqSeq = s.arqSeqExp then some packet else none
  | _ => none

/-- A message is assembled from the fragments the history took. -/
theorem Assembled.sublist {h : List StreamEvent} {first : Visit} {more : List Visit}
    {total : Nat} {bytes : Bytes} (assembled : Assembled h first more total bytes)
    : ((first :: more).map Visit.packet).Sublist (h.filterMap takenFragment) := by
  have taken : ∀ v ∈ first :: more, (takenFragment ∘ Visit.event) v = (some ∘ Visit.packet) v := by
    intro v member
    simp [takenFragment, Visit.event, assembled.taken v member]
  have visited := assembled.visited.filterMap takenFragment
  rw [List.filterMap_map, List.filterMap_congr taken, List.filterMap_eq_map] at visited
  exact visited

/-- Two fragments that leave a gap make up no message, unless one of them is all of it. -/
theorem not_assembled_pair {h : List StreamEvent} {a b : EQProtocolPacket} {message : Bytes}
    (taken : h.filterMap takenFragment = [a, b]) (gap : b.arqSeq ≠ a.arqSeq + 1)
    (short : firstData a ≠ message ∧ firstData b ≠ message) (first : Visit) (more : List Visit)
    : ¬ Assembled h first more message.length message := by
  intro assembled
  have pieces := assembled.sublist
  have content := assembled.content
  rw [taken, List.map_cons] at pieces
  cases more with
  | nil =>
      simp only [List.flatMap_nil, List.append_nil] at content
      rcases List.mem_cons.mp (pieces.subset List.mem_cons_self) with same | member
      · exact short.1 (by rw [content, same])
      · rw [List.mem_singleton] at member
        exact short.2 (by rw [content, member])
  | cons second rest =>
      have whole := pieces.eq_of_length_le (by simp)
      simp only [List.map_cons, List.cons.injEq] at whole
      have consecutive := (List.isChain_cons_cons.mp assembled.consecutive).1
      rw [whole.1, whole.2.1] at consecutive
      exact gap consecutive

/-- The first fragment of another message, with the five bytes that were missing. -/
def foreignArrival : Arrival := sequencedArrival 0x0d 2 [0, 0, 0, 9, 0xaa]

/-- The last fragment never comes, and the stream gives up on it. -/
def lostFragmentArrivals : List Arrival :=
  [responseArrival, firstArrival, foreignArrival] ++ (List.range' 3 31).map messageArrival

/-- What is completed of both messages. -/
def splicedMessage : Bytes := [0x05, 0x06, 0, 0, 0, 9, 0xaa]

/-- A message is completed with the length bytes and the data of another one. -/
theorem completed_whole_lostFragment
    : ∃ t w, run alone 40 lostFragmentArrivals boxStream = .ok ((), t, w)
        ∧ ¬ WholeMessages w := by
  obtain ⟨t, w, completed, checked⟩ := Traced.exists_of_endsIn
    (run alone 40 lostFragmentArrivals boxStream)
    (fun _ w => decide (.completedOversized splicedMessage ∈ w
      ∧ (w.filterMap takenFragment).map EQProtocolPacket.arqSeq = [0, 2]
      ∧ ∀ packet ∈ w.filterMap takenFragment, firstData packet ≠ splicedMessage))
    (by decide +kernel)
  obtain ⟨member, numbers, short⟩ := of_decide_eq_true checked
  refine ⟨t, w, completed, fun whole => ?_⟩
  obtain ⟨a, rest, taken, firstSeq, remaining⟩ := List.map_eq_cons_iff.mp numbers
  obtain ⟨b, none, tail, lastSeq, ended⟩ := List.map_eq_cons_iff.mp remaining
  rw [tail, List.map_eq_nil_iff.mp ended] at taken
  have gap : b.arqSeq ≠ a.arqSeq + 1 := by
    rw [firstSeq, lastSeq]
    decide
  have parts : firstData a ≠ splicedMessage ∧ firstData b ≠ splicedMessage :=
    ⟨short a (by simp [taken]), short b (by simp [taken])⟩
  obtain ⟨before, after, split⟩ := List.append_of_mem member
  obtain ⟨first, more, assembled⟩ := whole before splicedMessage after split
  have early : before.Sublist w := by
    rw [split]
    exact List.sublist_append_left _ _
  exact not_assembled_pair taken gap parts first more (assembled.mono early)

end EQPacketStream
end Scry
