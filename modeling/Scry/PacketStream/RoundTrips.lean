import Scry.PacketStream.Carriers

/-! What a sender took apart comes back whole: a message cut into fragments, whatever the
buffer was used for before, and the records of an `OP_AppCombined` in either length form.
-/

namespace Scry

/-- A packet whose payload is all it has. -/
def bare (netOp : UInt16) (bytes : Bytes) : EQProtocolPacket :=
  { EQProtocolPacket.ofSubpacket bytes (UInt32.ofNat bytes.length) with
    netOp
    payload := bytes
    payloadLength := UInt32.ofNat bytes.length }

namespace EQPacketFragmentSequence

/-- A message cut for sending: a first piece that is not empty and any pieces behind it,
together within the buffer's ceiling.
-/
structure Cut where
  first : Bytes
  more : List Bytes
  started : first ≠ []
  fits : (first ++ more.flatten).length ≤ kMaxFragmentBuffer.toNat

namespace Cut

def message (c : Cut) : Bytes := c.first ++ c.more.flatten

/-- The payloads on the wire: the total length stands in front of the first piece. -/
def payloads (c : Cut) : List Bytes :=
  (networkBytes32 (UInt32.ofNat c.message.length) ++ c.first) :: c.more

/-- The packets carry the payloads in order. -/
def SentAs (c : Cut) (packets : List EQProtocolPacket) : Prop :=
  List.Forall₂ PayloadIs packets c.payloads

/-- The bytes still to come behind the first piece and `n` further ones. -/
def outstanding (c : Cut) (n : Nat) : Bytes := (c.more.drop n).flatten

/-- The total a sender declares is the message's length. -/
theorem total (c : Cut) : (UInt32.ofNat c.message.length).toNat = c.message.length := by
  have ceiling : kMaxFragmentBuffer.toNat < 4294967296 := by decide
  have fits : c.message.length ≤ kMaxFragmentBuffer.toNat := c.fits
  rw [UInt32.toNat_ofNat']
  omega

theorem total_pos (c : Cut) : 0 < c.message.length := by
  have started := List.length_pos_iff.mpr c.started
  simp only [message, List.length_append]
  omega

/-- What arrived and what is outstanding add up to the message. -/
theorem arrived_outstanding (c : Cut) (n : Nat)
    : c.message = c.first ++ (c.more.take n).flatten ++ c.outstanding n := by
  rw [outstanding, List.append_assoc, ← List.flatten_append, List.take_append_drop]
  rfl

end Cut

/-- The pieces of a message put it together again: the sequence is complete from the piece on
that leaves no bytes outstanding, and then holds the message.
-/
structure Reassembles (f : EQPacketFragmentSequence) (c : Cut) (packets : List EQProtocolPacket)
    : Prop where
  complete_iff
    : ∀ n < packets.length,
        (f.addFragments (packets.take (n + 1))).isComplete = true ↔ c.outstanding n = []
  complete : (f.addFragments packets).isComplete = true
  size : (f.addFragments packets).dataSize = c.message.length
  data : (f.addFragments packets).data.take (f.addFragments packets).dataSize = c.message

/-- Messages one after another, with a reset behind each. -/
def ReassemblesAll (f : EQPacketFragmentSequence) : List (Cut × List EQProtocolPacket) → Prop
  | [] => True
  | (c, packets) :: rest =>
      f.Reassembles c packets ∧ (f.addFragments packets).reset.ReassemblesAll rest

/-- The first packet of a message leaves its piece in the buffer. -/
theorem buffers_cut {f : EQPacketFragmentSequence} (empty : f.dataSize = 0) (c : Cut)
    {packet : EQProtocolPacket}
    (payload
      : PayloadIs packet (networkBytes32 (UInt32.ofNat c.message.length) ++ c.first))
    : (f.addFragment packet).1.Buffers c.message.length c.first := by
  have positive : UInt32.ofNat c.message.length ≠ 0 := by
    intro zero
    have length := c.total
    rw [zero, UInt32.toNat_zero] at length
    exact absurd length (Nat.ne_of_lt c.total_pos)
  have small : UInt32.ofNat c.message.length ≤ kMaxFragmentBuffer := by
    rw [UInt32.le_iff_toNat_le, c.total]
    exact c.fits
  have buffers := buffers_first empty payload positive small
  rwa [c.total] at buffers

/-- After the first packet and `n` further ones the buffer holds their pieces. -/
theorem buffers_taken {f : EQPacketFragmentSequence} (empty : f.dataSize = 0) (c : Cut)
    {first : EQProtocolPacket} {more : List EQProtocolPacket}
    (sent : c.SentAs (first :: more)) (n : Nat)
    : (f.addFragments (first :: more.take n)).Buffers c.message.length
        (c.first ++ (c.more.take n).flatten) := by
  obtain ⟨payload, payloads⟩ := List.forall₂_cons.mp sent
  have arrived := congrArg List.length (c.arrived_outstanding n)
  rw [List.length_append, List.length_append] at arrived
  have taken : List.Forall₂ PayloadIs (more.take n) (c.more.take n) :=
    List.forall₂_take n payloads
  exact (buffers_cut empty c payload).addFragments c.started taken (by omega)

/-- An empty sequence reassembles a message from its packets. -/
theorem reassembles {f : EQPacketFragmentSequence} (empty : f.dataSize = 0) (c : Cut)
    {packets : List EQProtocolPacket} (sent : c.SentAs packets)
    : f.Reassembles c packets := by
  cases packets with
  | nil => cases sent
  | cons first more =>
      have length : more.length = c.more.length := (List.forall₂_cons.mp sent).2.length_eq
      have all := buffers_taken empty c sent more.length
      rw [List.take_length, length, List.take_length] at all
      have complete (n : Nat)
          : (f.addFragments (first :: more.take n)).isComplete = true
            ↔ c.outstanding n = [] := by
        have arrived := congrArg List.length (c.arrived_outstanding n)
        rw [List.length_append] at arrived
        rw [(buffers_taken empty c sent n).isComplete_iff, ← List.length_eq_zero_iff]
        constructor
        · rintro ⟨_, whole⟩
          omega
        · intro none
          exact ⟨by simp [c.started], by omega⟩
      have filled : (f.addFragments (first :: more)).dataSize = c.message.length := all.filled
      refine ⟨fun n _ => complete n, ?_, filled, ?_⟩
      · rw [all.isComplete_iff]
        exact ⟨by simp [c.started], rfl⟩
      · obtain ⟨rest, data⟩ := all.content
        rw [filled, data]
        exact List.take_left' rfl

/-- After a reset, whatever the sequence was used for, every message that is sent is
reassembled, and after its reset the next one is, by induction on the messages.
-/
theorem messages_reassemble (f : EQPacketFragmentSequence)
    {messages : List (Cut × List EQProtocolPacket)} (sent : ∀ m ∈ messages, m.1.SentAs m.2)
    : f.reset.ReassemblesAll messages := by
  induction messages generalizing f with
  | nil => trivial
  | cons m rest ih =>
      obtain ⟨first, later⟩ := List.forall_mem_cons.mp sent
      exact ⟨reassembles f.reset_dataSize m.1 first, ih _ later⟩

/-- Two messages, the second one longer than the first had made room for. -/
def twoMessages : List (Cut × List EQProtocolPacket) :=
  [(⟨[0x05], [[0x06], []], by decide, by decide⟩,
      [bare OP_Oversized [0, 0, 0, 2, 0x05], bare OP_Oversized [0x06], bare OP_Oversized []]),
    (⟨[0x07, 0x08], [[0x09]], by decide, by decide⟩,
      [bare OP_Oversized [0, 0, 0, 3, 0x07, 0x08], bare OP_Oversized [0x09]])]

theorem messages_reassemble_two : fresh.reset.ReassemblesAll twoMessages := by
  refine messages_reassemble fresh (fun m member => ?_)
  simp only [twoMessages, List.mem_cons, List.not_mem_nil, or_false] at member
  rcases member with rfl | rfl
  · exact .cons ⟨by decide, [], rfl⟩ (.cons ⟨by decide, [], rfl⟩ (.cons ⟨by decide, [], rfl⟩ .nil))
  · exact .cons ⟨by decide, [], rfl⟩ (.cons ⟨by decide, [], rfl⟩ .nil)

end EQPacketFragmentSequence

/-- How far the cursor of a record loop has moved when the loop ends. -/
def unrolledLength (record : Bytes → Item × Nat) : Nat → Nat → Bytes → Nat
  | 0, _, _ => 0
  | steps + 1, remaining, data =>
      if remaining = 0 then 0
      else
        (record data).2
          + unrolledLength record steps (remaining - (record data).2) (data.drop (record data).2)

/-- Where the loop over the records of an `OP_AppCombined` leaves its cursor. -/
def appCombinedEnd (packet : EQProtocolPacket) : Nat :=
  unrolledLength appCombinedRecord packet.payloadLength.toNat packet.payloadLength.toNat
    packet.payload

/-- The cursor's way does not depend on the bound, as `unrollRecords_steps` has it for the
items.
-/
theorem unrolledLength_steps {record : Bytes → Item × Nat} (moves : ∀ data, 0 < (record data).2)
    {steps more remaining : Nat} {data : Bytes} (enough : remaining ≤ steps)
    (enough' : remaining ≤ more)
    : unrolledLength record steps remaining data = unrolledLength record more remaining data := by
  induction steps generalizing more remaining data with
  | zero =>
      obtain rfl : remaining = 0 := by omega
      cases more <;> simp [unrolledLength]
  | succ steps ih =>
      cases more with
      | zero =>
          obtain rfl : remaining = 0 := by omega
          simp [unrolledLength]
      | succ more =>
          have taken := moves data
          simp only [unrolledLength]
          split
          · rfl
          · rw [@ih more _ _ (by omega) (by omega)]

/-- A record that is taken whole moves the cursor to what stands behind it. -/
theorem unrolledLength_cons {record : Bytes → Item × Nat} (moves : ∀ data, 0 < (record data).2)
    {wire rest : Bytes} {remaining : Nat} (whole : (record (wire ++ rest)).2 = wire.length)
    : unrolledLength record (wire.length + remaining) (wire.length + remaining) (wire ++ rest)
      = wire.length + unrolledLength record remaining remaining rest := by
  have taken := moves (wire ++ rest)
  rw [whole] at taken
  obtain ⟨n, next⟩ : ∃ n, wire.length + remaining = n + 1 :=
    ⟨wire.length + remaining - 1, by omega⟩
  rw [next]
  simp only [unrolledLength, Nat.add_eq_zero_iff, Nat.one_ne_zero, and_false, if_false, whole]
  rw [List.drop_left, ← next, Nat.add_sub_cancel_left]
  exact congrArg (wire.length + ·) (unrolledLength_steps moves (by omega) (Nat.le_refl _))

/-- The cursor ends where the records do, by induction on them. -/
theorem unrolledLength_records {records : List AppRecord} (fits : ∀ r ∈ records, r.Fits)
    (tail : Bytes)
    : unrolledLength appCombinedRecord (records.flatMap AppRecord.wire).length
        (records.flatMap AppRecord.wire).length (records.flatMap AppRecord.wire ++ tail)
      = (records.flatMap AppRecord.wire).length := by
  induction records with
  | nil => rfl
  | cons r rest ih =>
      obtain ⟨fit, fits⟩ := List.forall_mem_cons.mp fits
      have later := ih fits
      simp only [List.flatMap_cons, List.length_append, List.append_assoc]
      generalize rest.flatMap AppRecord.wire ++ tail = data at later ⊢
      obtain ⟨_, whole⟩ := appCombinedRecord_wire fit data
      rw [unrolledLength_cons appCombinedRecord_moves whole, later]

/-- The items of an `OP_AppCombined` are calls of `dispatchPacket`. -/
theorem unrollRecords_calls (steps remaining : Nat) (data : Bytes)
    : ∃ calls : List DispatchCall,
        unrollRecords appCombinedRecord steps remaining data = calls.map .message := by
  induction steps generalizing remaining data with
  | zero => exact ⟨[], rfl⟩
  | succ steps ih =>
      rw [unrollRecords]
      split
      · exact ⟨[], rfl⟩
      · obtain ⟨call, first⟩ := appCombinedRecord_message data
        obtain ⟨calls, rest⟩ := ih (remaining - (appCombinedRecord data).2)
          (data.drop (appCombinedRecord data).2)
        exact ⟨call :: calls, by rw [first, rest, List.map_cons]⟩

namespace EQPacketStream

/-- Messages are dispatched one after another, by induction on them. -/
theorem forEach_messages (processInner : EQProtocolPacket → StreamM Unit)
    (calls : List DispatchCall) (s : EQPacketStream)
    : Traced.forEach (perform processInner) (calls.map .message) s
      = .ok ((), s, calls.map .dispatchPacket) := by
  induction calls with
  | nil => rfl
  | cons call rest ih =>
      rw [List.map_cons, Traced.forEach, perform, Traced.emit_bind_run, ih]
      rfl

/-- The message a call of `dispatchPacket` hands on. -/
def dispatched (call : DispatchCall) : Message := ⟨call.opcode, call.body⟩

/-- Processing an `OP_AppCombined` that holds the records of messages dispatches these
messages in order and nothing else, and its cursor ends with the payload.
-/
theorem appCombined_dispatches (context : StreamContext) (fuel : Nat) (s : EQPacketStream)
    (header : Option IPHeader) {packet : EQProtocolPacket} {records : List AppRecord}
    (kind : packet.netOp = OP_AppCombined) (fits : ∀ r ∈ records, r.Fits)
    (payload : PayloadIs packet (records.flatMap AppRecord.wire))
    : ∃ calls : List DispatchCall,
        processPacket context (fuel + 1) packet header s
          = .ok ((), s, .processing s packet :: calls.map .dispatchPacket)
        ∧ calls.map dispatched = records.map AppRecord.message
        ∧ appCombinedEnd packet = packet.payloadLength.toNat := by
  obtain ⟨length, tail, layout⟩ := payload
  obtain ⟨calls, unrolled⟩ :=
    unrollRecords_calls packet.payloadLength.toNat packet.payloadLength.toNat packet.payload
  refine ⟨calls, ?_, ?_, ?_⟩
  · simp only [processPacket, Traced.get_bind_run, Traced.emit_bind_run]
    rw [processNetOpCode_appCombined kind, unrollAppCombined, unrolled, forEach_messages]
  · have contents := unrollAppCombined_contents fits tail
    rw [← length, ← layout, unrolled, List.map_map] at contents
    have messages : (calls.map dispatched).map Content.message
        = (records.map AppRecord.message).map Content.message := by
      rw [List.map_map, List.map_map]
      exact contents
    exact List.map_injective_iff.mpr (fun _ _ same => Content.message.inj same) messages
  · have ended := unrolledLength_records fits tail
    rwa [← length, ← layout] at ended

/-- A special message in a long record behind an ordinary one in a short record. -/
def twoRecords : List AppRecord := [⟨ordinaryMessage, false⟩, ⟨specialMessage, true⟩]

/-- The packet that holds them. -/
def twoRecordsPacket : EQProtocolPacket :=
  bare OP_AppCombined (twoRecords.flatMap AppRecord.wire)

theorem appCombined_dispatches_two
    : ∃ calls : List DispatchCall,
        processPacket alone 1 twoRecordsPacket none boxStream
          = .ok ((), boxStream,
              .processing boxStream twoRecordsPacket :: calls.map .dispatchPacket)
        ∧ calls.map dispatched = [ordinaryMessage, specialMessage]
        ∧ appCombinedEnd twoRecordsPacket = twoRecordsPacket.payloadLength.toNat := by
  have fits : ∀ r ∈ twoRecords, r.Fits := by
    intro r member
    simp only [twoRecords, List.mem_cons, List.not_mem_nil, or_false] at member
    rcases member with rfl | rfl <;> (unfold AppRecord.Fits; decide)
  have payload : PayloadIs twoRecordsPacket (twoRecords.flatMap AppRecord.wire) :=
    ⟨by decide, [], rfl⟩
  exact appCombined_dispatches alone 0 boxStream none rfl fits payload

end EQPacketStream
end Scry
