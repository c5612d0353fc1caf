import Scry.PacketStream.Steps

/-! Application messages and the carriers that hold them.
A sender may put a message behind an `OP_Packet`, into a record of a combined packet or into a
fragmented sequence; what the stream hands on should not depend on the choice. It does for the
records of an `OP_Combined`, where an escaped opcode throws the unrolling off by a byte.
-/

namespace Scry

/-- An application message: an opcode in host order, and the bytes behind it. -/
structure Message where
  opcode : UInt16
  body : Bytes
  deriving DecidableEq

/-- Two bytes in host (little-endian) order. -/
def hostBytes16 (value : UInt16) : Bytes :=
  [UInt8.ofNat (value.toNat % 256), UInt8.ofNat (value.toNat / 256)]

namespace Message

/-- The opcode starts with a zero byte and has to be told apart from a net opcode. -/
def isSpecial (m : Message) : Bool := IS_NET_OPCODE m.opcode

/-- The wire form: a special opcode is escaped by a zero byte in front. -/
def wire (m : Message) : Bytes :=
  (if m.isSpecial then [0x00] else []) ++ hostBytes16 m.opcode ++ m.body

end Message

/-- What a carrier hands on, in the sender's terms. -/
inductive Content
  | message (m : Message)
  | subpacket (bytes : Bytes)
  deriving DecidableEq

/-- An item in the sender's terms: the bytes it was given the length of. -/
def Item.content : Item → Content
  | .message call => .message ⟨call.opcode, call.body⟩
  | .subpacket packet => .subpacket (readBytes packet.packet packet.length.toNat)

/-- A packet inside an `OP_Combined`: at least a net opcode, whose first byte is zero and
whose second is not.
-/
def IsInnerPacket (bytes : Bytes) : Prop :=
  2 ≤ bytes.length ∧ byteAt bytes 0 = 0 ∧ byteAt bytes 1 ≠ 0

namespace Content

def wire : Content → Bytes
  | .message m => m.wire
  | .subpacket bytes => bytes

def isSpecial : Content → Bool
  | .message m => m.isSpecial
  | .subpacket _ => false

/-- A record of an `OP_Combined` has a one-byte length. -/
def FitsCombined : Content → Prop
  | .message m => m.wire.length < 256
  | .subpacket bytes => bytes.length < 256 ∧ IsInnerPacket bytes

/-- The record of an `OP_Combined`. -/
def combinedWire (c : Content) : Bytes := UInt8.ofNat c.wire.length :: c.wire

end Content

/-- A record of an `OP_AppCombined`, in the short or in the long form. -/
structure AppRecord where
  message : Message
  long : Bool

namespace AppRecord

/-- A short length is below the marker byte, a long one has two bytes. -/
def Fits (r : AppRecord) : Prop := r.message.wire.length < if r.long then 65536 else 255

def wire (r : AppRecord) : Bytes :=
  (if r.long then 0xff :: networkBytes16 (UInt16.ofNat r.message.wire.length)
    else [UInt8.ofNat r.message.wire.length])
    ++ r.message.wire

end AppRecord

-----------------------------------------------------------------------------------------
-- Reading a message behind its opcode
-----------------------------------------------------------------------------------------

theorem eqtohuint16_hostBytes16 (value : UInt16) (tail : Bytes)
    : eqtohuint16 (hostBytes16 value ++ tail) = value := by
  apply UInt16.toNat_inj.mp
  have bound := value.toNat_lt
  simp only [eqtohuint16, hostBytes16, List.cons_append, byteAt_cons_zero, byteAt_cons_succ,
    UInt8.toNat_ofNat', UInt16.toNat_ofNat']
  omega

/-- An opcode that starts with a zero byte is a net opcode, and the other way round. -/
theorem isNetOpcode_iff (opcode : UInt16)
    : IS_NET_OPCODE opcode = true ↔ opcode.toNat % 256 = 0 := by
  have masked : (opcode &&& 0x00ff).toNat = opcode.toNat % 256 := by
    rw [UInt16.toNat_and]
    exact Nat.and_two_pow_sub_one_eq_mod _ 8
  rw [IS_NET_OPCODE, beq_iff_eq, ← UInt16.toNat_inj, masked]
  rfl

namespace Message

theorem wire_length (m : Message)
    : m.wire.length = m.body.length + if m.isSpecial then 3 else 2 := by
  unfold wire
  split <;> simp [hostBytes16]

/-- A special message starts with a zero opcode; its own opcode is one byte on. -/
theorem read_special {m : Message} (special : m.isSpecial) (tail : Bytes)
    : eqtohuint16 (m.wire ++ tail) = 0
      ∧ eqtohuint16 ((m.wire ++ tail).drop 1) = m.opcode
      ∧ (m.wire ++ tail).drop 3 = m.body ++ tail := by
  have low := (isNetOpcode_iff m.opcode).mp special
  have layout : m.wire ++ tail = 0x00 :: (hostBytes16 m.opcode ++ (m.body ++ tail)) := by
    simp [wire, special]
  rw [layout]
  refine ⟨?_, eqtohuint16_hostBytes16 m.opcode _, rfl⟩
  simp [eqtohuint16, hostBytes16, low]

/-- An ordinary message starts with its opcode, which is an application's. -/
theorem read_ordinary {m : Message} (ordinary : m.isSpecial = false) (tail : Bytes)
    : eqtohuint16 (m.wire ++ tail) = m.opcode
      ∧ m.opcode ≠ 0
      ∧ (m.wire ++ tail).drop 2 = m.body ++ tail := by
  have layout : m.wire ++ tail = hostBytes16 m.opcode ++ (m.body ++ tail) := by
    simp [wire, ordinary]
  rw [layout]
  refine ⟨eqtohuint16_hostBytes16 m.opcode _, ?_, rfl⟩
  intro zero
  simp [isSpecial, zero, IS_NET_OPCODE] at ordinary

end Message

/-- The content of a message call whose length is the body's. -/
theorem content_message (m : Message) (tail : Bytes) {len : Nat} (same : len = m.body.length)
    : (Item.message ⟨m.opcode, m.body ++ tail, len⟩).content = .message m := by
  simp only [Item.content, DispatchCall.body, same, readBytes_append]

/-- A carrier that is split by its opcode hands on the message it holds. -/
theorem unwrap_content (m : Message) (tail : Bytes) (length : UInt32) {remaining : Nat → Nat}
    (rest : ∀ n, n ≤ m.wire.length → n ≤ 3 → remaining n = m.wire.length - n)
    : (unwrap (m.wire ++ tail) length remaining).content = .message m := by
  have size := m.wire_length
  cases special : m.isSpecial with
  | true =>
      obtain ⟨zero, opcode, body⟩ := m.read_special special tail
      simp only [special, if_true] at size
      simp only [unwrap, zero, if_true, opcode, body]
      apply content_message
      rw [rest 3 (by omega) (by omega), size]
      rfl
  | false =>
      obtain ⟨opcode, nonzero, body⟩ := m.read_ordinary special tail
      have app : IS_NET_OPCODE m.opcode = false := special
      simp only [special, Bool.false_eq_true, if_false] at size
      simp only [unwrap, opcode, nonzero, app, Bool.false_eq_true, if_false, body]
      apply content_message
      rw [rest 2 (by omega) (by omega), size]
      rfl

/-- A length that is behind the bytes it counts goes down without a wrap. -/
theorem payloadLength_sub {length : UInt32} {size n : Nat} (same : length.toNat = size)
    (within : n ≤ size) (small : n ≤ 3)
    : (length - UInt32.ofNat n).toNat = size - n := by
  have bound := length.toNat_lt
  rw [UInt32.toNat_sub, UInt32.toNat_ofNat', same]
  omega

theorem toSizeT_sub {m n : Nat} (h : n ≤ m) (small : m < 18446744073709551616)
    : toSizeT ((m : Int) - n) = m - n := by
  unfold toSizeT
  omega

-----------------------------------------------------------------------------------------
-- Reading one record
-----------------------------------------------------------------------------------------

/-- The record of an ordinary message is taken whole. -/
theorem combinedRecord_ordinary {m : Message} (ordinary : m.isSpecial = false)
    (fits : m.wire.length < 256) (rest : Bytes)
    : (combinedRecord ((Content.message m).combinedWire ++ rest)).1.content = .message m
      ∧ (combinedRecord ((Content.message m).combinedWire ++ rest)).2
        = (Content.message m).combinedWire.length := by
  obtain ⟨opcode, nonzero, body⟩ := m.read_ordinary ordinary rest
  have app : IS_NET_OPCODE m.opcode = false := ordinary
  have size := m.wire_length
  simp only [ordinary, Bool.false_eq_true, if_false] at size
  have length : (UInt8.ofNat m.wire.length).toNat = m.wire.length := by
    rw [UInt8.toNat_ofNat']
    omega
  simp only [Content.combinedWire, Content.wire, List.cons_append, combinedRecord,
    byteAt_cons_zero, List.drop_one, List.tail_cons, opcode, nonzero, app, Bool.false_eq_true,
    if_false, body, length, List.length_cons]
  refine ⟨content_message m rest ?_, Nat.add_comm _ _⟩
  unfold toSizeT
  omega

/-- An inner packet starts with a net opcode other than zero. -/
theorem IsInnerPacket.read {bytes : Bytes} (inner : IsInnerPacket bytes) (rest : Bytes)
    : eqtohuint16 (bytes ++ rest) ≠ 0 ∧ IS_NET_OPCODE (eqtohuint16 (bytes ++ rest)) = true := by
  rcases inner with ⟨long, first, second⟩
  match bytes with
  | [] | [_] => simp at long
  | low :: high :: tail =>
      have zero : low = 0 := by simpa using first
      have positive : high.toNat ≠ 0 := by
        intro h
        apply second
        simpa using UInt8.toNat_inj.mp h
      have bound := high.toNat_lt
      have value : (eqtohuint16 (low :: high :: tail ++ rest)).toNat = high.toNat * 256 := by
        simp only [eqtohuint16, List.cons_append, byteAt_cons_zero, byteAt_cons_succ, zero,
          UInt16.toNat_ofNat', UInt8.toNat_zero]
        omega
      constructor
      · intro h
        rw [h] at value
        simp only [UInt16.toNat_zero] at value
        omega
      · rw [isNetOpcode_iff, value]
        omega

/-- The record of an inner packet is taken whole. -/
theorem combinedRecord_subpacket {bytes : Bytes} (fits : bytes.length < 256)
    (inner : IsInnerPacket bytes) (rest : Bytes)
    : (combinedRecord ((Content.subpacket bytes).combinedWire ++ rest)).1.content
        = .subpacket bytes
      ∧ (combinedRecord ((Content.subpacket bytes).combinedWire ++ rest)).2
        = (Content.subpacket bytes).combinedWire.length := by
  obtain ⟨nonzero, net⟩ := inner.read rest
  have length : (UInt8.ofNat bytes.length).toNat = bytes.length := by
    rw [UInt8.toNat_ofNat']
    omega
  simp only [Content.combinedWire, Content.wire, List.cons_append, combinedRecord,
    byteAt_cons_zero, List.drop_one, List.tail_cons, nonzero, net, if_true, if_false, length,
    List.length_cons]
  refine ⟨?_, Nat.add_comm _ _⟩
  simp only [Item.content, EQProtocolPacket.ofSubpacket, EQProtocolPacket.init_packet,
    EQProtocolPacket.init_length, UInt8.toNat_toUInt32, length, readBytes_append]

/-- The record of a special message loses its place: the body comes out a byte too long. -/
theorem combinedRecord_special {m : Message} (special : m.isSpecial)
    (fits : m.wire.length < 256) (rest : Bytes)
    : ∃ call, (combinedRecord ((Content.message m).combinedWire ++ rest)).1 = .message call
        ∧ call.body.length = m.body.length + 1 := by
  obtain ⟨zero, opcode, body⟩ := m.read_special special rest
  have size := m.wire_length
  simp only [special, if_true] at size
  have length : (UInt8.ofNat m.wire.length).toNat = m.wire.length := by
    rw [UInt8.toNat_ofNat']
    omega
  simp only [Content.combinedWire, Content.wire, List.cons_append, combinedRecord,
    byteAt_cons_zero, List.drop_one, List.tail_cons, zero, if_true, length]
  refine ⟨_, rfl, ?_⟩
  simp only [DispatchCall.body, readBytes_length, toSizeT]
  omega

/-- Behind its length a record of an `OP_AppCombined` is split by its opcode, the length
shrinking with the escape byte; `start` bytes of length stand in front.
-/
theorem escapedRecord (m : Message) (rest : Bytes) (start : Nat) {n shorter : Nat}
    (length : n = m.wire.length) (less : shorter = n - 1) {record : Item × Nat}
    (split
      : record
        = if eqtohuint16 (m.wire ++ rest) = 0 then
            (.message
              ⟨eqtohuint16 ((m.wire ++ rest).drop 1), (m.wire ++ rest).drop 3,
                toSizeT (shorter - 2)⟩,
              start + 1 + shorter)
          else
            (.message
              ⟨eqtohuint16 (m.wire ++ rest), (m.wire ++ rest).drop 2, toSizeT (n - 2)⟩,
              start + n))
    (small : n < 65536)
    : record.1.content = .message m ∧ record.2 = start + m.wire.length := by
  have size := m.wire_length
  cases special : m.isSpecial with
  | true =>
      obtain ⟨zero, opcode, body⟩ := m.read_special special rest
      simp only [special, if_true] at size
      simp only [zero, if_true, opcode, body] at split
      rw [split]
      refine ⟨content_message m rest ?_, ?_⟩
      · unfold toSizeT
        omega
      · simp only
        omega
  | false =>
      obtain ⟨opcode, nonzero, body⟩ := m.read_ordinary special rest
      simp only [special, Bool.false_eq_true, if_false] at size
      simp only [opcode, nonzero, if_false, body] at split
      rw [split]
      refine ⟨content_message m rest ?_, ?_⟩
      · unfold toSizeT
        omega
      · simp only
        omega

/-- The records of an `OP_AppCombined` are taken whole, in either form. -/
theorem appCombinedRecord_wire {r : AppRecord} (fits : r.Fits) (rest : Bytes)
    : (appCombinedRecord (r.wire ++ rest)).1.content = .message r.message
      ∧ (appCombinedRecord (r.wire ++ rest)).2 = r.wire.length := by
  obtain ⟨m, long⟩ := r
  have size := m.wire_length
  have atLeast : 2 ≤ m.wire.length := by
    rw [size]
    split <;> omega
  cases long with
  | false =>
      have below : m.wire.length < 255 := fits
      have length : (UInt8.ofNat m.wire.length).toNat = m.wire.length := by
        rw [UInt8.toNat_ofNat']
        omega
      have short : UInt8.ofNat m.wire.length ≠ 0xff := by
        intro h
        rw [h] at length
        simp at length
        omega
      have less : (UInt8.ofNat m.wire.length - 1).toNat = m.wire.length - 1 := by
        rw [UInt8.toNat_sub, length]
        simp
        omega
      have layout : (AppRecord.wire ⟨m, false⟩) ++ rest
          = UInt8.ofNat m.wire.length :: (m.wire ++ rest) := by
        simp [AppRecord.wire]
      have wireLength : (AppRecord.wire ⟨m, false⟩).length = 1 + m.wire.length := by
        simp [AppRecord.wire]
        omega
      rw [layout, wireLength]
      refine escapedRecord m rest 1 length (less.trans (by rw [length])) ?_ (by omega)
      simp only [appCombinedRecord, byteAt_cons_zero, short, ne_eq, not_false_eq_true, if_true,
        List.drop_one, List.tail_cons]
  | true =>
      have below : m.wire.length < 65536 := fits
      have length : (UInt16.ofNat m.wire.length).toNat = m.wire.length := by
        rw [UInt16.toNat_ofNat']
        omega
      have less : (UInt16.ofNat m.wire.length - 1).toNat = m.wire.length - 1 := by
        rw [UInt16.toNat_sub, length]
        simp
        omega
      have layout : (AppRecord.wire ⟨m, true⟩) ++ rest
          = 0xff :: (networkBytes16 (UInt16.ofNat m.wire.length) ++ (m.wire ++ rest)) := by
        simp [AppRecord.wire]
      have wireLength : (AppRecord.wire ⟨m, true⟩).length = 3 + m.wire.length := by
        simp [AppRecord.wire]
        omega
      have body : (0xff :: (networkBytes16 (UInt16.ofNat m.wire.length) ++ (m.wire ++ rest))).drop 3
          = m.wire ++ rest := rfl
      rw [layout, wireLength]
      refine escapedRecord m rest 3 length (less.trans (by rw [length])) ?_ (by omega)
      simp only [appCombinedRecord, byteAt_cons_zero, ne_eq, not_true_eq_false, if_false, body,
        List.drop_one, List.tail_cons, eqntohuint16_networkBytes16]

-----------------------------------------------------------------------------------------
-- Unrolling all records
-----------------------------------------------------------------------------------------

/-- A record that is taken whole is followed by what the rest unrolls to. -/
theorem unrollRecords_cons {record : Bytes → Item × Nat} (moves : ∀ data, 0 < (record data).2)
    {wire rest : Bytes} {remaining : Nat} (whole : (record (wire ++ rest)).2 = wire.length)
    : unrollRecords record (wire.length + remaining) (wire.length + remaining) (wire ++ rest)
      = (record (wire ++ rest)).1 :: unrollRecords record remaining remaining rest := by
  have taken := moves (wire ++ rest)
  rw [whole] at taken
  obtain ⟨n, next⟩ : ∃ n, wire.length + remaining = n + 1 := ⟨wire.length + remaining - 1, by omega⟩
  rw [next]
  simp only [unrollRecords, Nat.add_eq_zero_iff, Nat.one_ne_zero, and_false, if_false, whole]
  rw [List.drop_left, ← next, Nat.add_sub_cancel_left]
  exact congrArg (List.cons _) (unrollRecords_steps moves (by omega) (Nat.le_refl _))

/-- The records of an `OP_Combined` come out as they went in exactly when none is special, by
induction on the records: up to the first special one nothing is out of place.
-/
theorem unrollCombined_contents_iff {records : List Content}
    (fits : ∀ c ∈ records, c.FitsCombined) (tail : Bytes)
    : (unrollRecords combinedRecord (records.flatMap Content.combinedWire).length
          (records.flatMap Content.combinedWire).length
          (records.flatMap Content.combinedWire ++ tail)).map Item.content
        = records
      ↔ ∀ c ∈ records, c.isSpecial = false := by
  induction records with
  | nil => simp [unrollRecords]
  | cons c rest ih =>
      have fit := fits c List.mem_cons_self
      have later := ih (fun other member => fits other (List.mem_cons_of_mem _ member))
      simp only [List.flatMap_cons, List.length_append, List.append_assoc, List.forall_mem_cons]
      generalize rest.flatMap Content.combinedWire ++ tail = data at later ⊢
      cases special : c.isSpecial with
      | false =>
          have whole : (combinedRecord (c.combinedWire ++ data)).1.content = c
              ∧ (combinedRecord (c.combinedWire ++ data)).2 = c.combinedWire.length := by
            cases c with
            | message m => exact combinedRecord_ordinary special fit data
            | subpacket bytes => exact combinedRecord_subpacket fit.1 fit.2 data
          rw [unrollRecords_cons combinedRecord_moves whole.2, List.map_cons, whole.1,
            List.cons.injEq, later]
          simp
      | true =>
          cases c with
          | subpacket bytes => cases special
          | message m =>
              obtain ⟨call, taken, long⟩ := combinedRecord_special special fit data
              refine iff_of_false ?_ (by simp)
              intro same
              have started : (Content.message m).combinedWire.length ≠ 0 := by
                simp [Content.combinedWire]
              obtain ⟨n, next⟩ := Nat.exists_eq_succ_of_ne_zero started
              rw [next, Nat.succ_add] at same
              simp only [unrollRecords, Nat.succ_ne_zero, if_false, List.map_cons, taken,
                List.cons.injEq, Item.content, Content.message.injEq] at same
              have body := congrArg Message.body same.1
              rw [← body] at long
              simp at long

/-- The records of an `OP_AppCombined` come out as they went in, by induction on them. -/
theorem unrollAppCombined_contents {records : List AppRecord} (fits : ∀ r ∈ records, r.Fits)
    (tail : Bytes)
    : (unrollRecords appCombinedRecord (records.flatMap AppRecord.wire).length
          (records.flatMap AppRecord.wire).length
          (records.flatMap AppRecord.wire ++ tail)).map Item.content
      = records.map (fun r => .message r.message) := by
  induction records with
  | nil => simp [unrollRecords]
  | cons r rest ih =>
      have later := ih (fun other member => fits other (List.mem_cons_of_mem _ member))
      simp only [List.flatMap_cons, List.length_append, List.append_assoc]
      generalize rest.flatMap AppRecord.wire ++ tail = data at later ⊢
      obtain ⟨content, whole⟩ := appCombinedRecord_wire (fits r List.mem_cons_self) data
      rw [unrollRecords_cons appCombinedRecord_moves whole, List.map_cons, content, later,
        List.map_cons]

/-- The packet's payload is exactly these bytes. -/
def PayloadIs (packet : EQProtocolPacket) (bytes : Bytes) : Prop :=
  packet.payloadLength.toNat = bytes.length ∧ ∃ tail, packet.payload = bytes ++ tail

theorem PayloadIs.payloadBytes {packet : EQProtocolPacket} {bytes : Bytes}
    (payload : PayloadIs packet bytes)
    : packet.payloadBytes = bytes := by
  obtain ⟨length, tail, same⟩ := payload
  rw [EQProtocolPacket.payloadBytes, length, same, readBytes_append]

-----------------------------------------------------------------------------------------
-- Messages in fragments
-----------------------------------------------------------------------------------------

/-- Packets that carry the bytes of a message in order: the first behind the total length,
and none of them empty.
-/
def FragmentsOf (message : Bytes) : List EQProtocolPacket → Prop
  | [] => False
  | first :: more =>
      ∃ piece pieces,
        message = piece ++ pieces.flatten
        ∧ (∀ p ∈ piece :: pieces, p ≠ [])
        ∧ PayloadIs first (networkBytes32 (UInt32.ofNat message.length) ++ piece)
        ∧ List.Forall₂ PayloadIs more pieces

namespace EQPacketFragmentSequence

theorem eqntohuint32_networkBytes32 (value : UInt32) (tail : Bytes)
    : eqntohuint32 (networkBytes32 value ++ tail) = value := by
  apply UInt32.toNat_inj.mp
  have bound := value.toNat_lt
  simp only [eqntohuint32, networkBytes32, networkBytes16, List.cons_append, List.nil_append,
    byteAt_cons_zero, byteAt_cons_succ, UInt8.toNat_ofNat', UInt16.toNat_ofNat',
    UInt32.toNat_ofNat']
  omega

/-- Adding fragments one after another. -/
def addFragments (f : EQPacketFragmentSequence) (fragments : List EQProtocolPacket)
    : EQPacketFragmentSequence :=
  fragments.foldl (fun f packet => (f.addFragment packet).1) f

theorem addFragments_append (f : EQPacketFragmentSequence) (earlier : List EQProtocolPacket)
    (last : EQProtocolPacket)
    : f.addFragments (earlier ++ [last]) = ((f.addFragments earlier).addFragment last).1 := by
  simp [addFragments]

/-- Continuations that fit the total are appended one after another, by induction on them. -/
theorem Buffers.addFragments {f : EQPacketFragmentSequence} {total : Nat} {bytes : Bytes}
    (buffers : f.Buffers total bytes) (nonempty : bytes ≠ []) {more : List EQProtocolPacket}
    {pieces : List Bytes} (payloads : List.Forall₂ PayloadIs more pieces)
    (fits : bytes.length + pieces.flatten.length ≤ total)
    : (f.addFragments more).Buffers total (bytes ++ pieces.flatten) := by
  induction payloads generalizing f bytes with
  | nil => simpa [EQPacketFragmentSequence.addFragments] using buffers
  | @cons packet piece more pieces payload _ ih =>
      simp only [List.flatten_cons, List.length_append] at fits
      have started : f.dataSize ≠ 0 := by
        rw [buffers.filled]
        simpa using nonempty
      have room : f.dataSize + packet.payloadLength.toNat ≤ f.dataAllocSize.toNat := by
        have enough := buffers.room
        rw [buffers.filled, payload.1]
        omega
      have next := buffers.addNext started room
      rw [payload.payloadBytes] at next
      have all := ih next (by simp [nonempty]) (by rw [List.length_append]; omega)
      simpa [EQPacketFragmentSequence.addFragments] using all

/-- The first fragment of a message is taken, and leaves its piece behind the total. -/
theorem buffers_first {f : EQPacketFragmentSequence} (empty : f.dataSize = 0)
    {packet : EQProtocolPacket} {total : UInt32} {piece : Bytes}
    (payload : PayloadIs packet (networkBytes32 total ++ piece)) (positive : total ≠ 0)
    (small : total ≤ kMaxFragmentBuffer)
    : (f.addFragment packet).1.Buffers total.toNat piece := by
  obtain ⟨length, tail, layout⟩ := payload
  have declares : declaredTotal packet = total := by
    rw [declaredTotal, layout, List.append_assoc, eqntohuint32_networkBytes32]
  have opens : Opens packet := by
    rw [Opens, declares]
    exact ⟨positive, small⟩
  have size : packet.payloadLength.toNat = piece.length + 4 := by
    rw [length]
    simp [networkBytes32, networkBytes16]
  have data : packet.payload.drop 4 = piece ++ tail := by
    rw [layout]
    rfl
  have buffers := buffers_addFirst empty opens
  rw [declares, data, firstLength (by omega), size, Nat.add_sub_cancel, readBytes_append]
    at buffers
  exact buffers

/-- The fragments of a message leave it whole in the buffer. -/
theorem addFragments_whole {f : EQPacketFragmentSequence} (empty : f.dataSize = 0)
    {message : Bytes} {fragments : List EQProtocolPacket}
    (small : message.length ≤ kMaxFragmentBuffer.toNat)
    (whole : FragmentsOf message fragments)
    : (f.addFragments fragments).Buffers message.length message
      ∧ (f.addFragments fragments).isComplete = true := by
  match fragments, whole with
  | first :: more, ⟨piece, pieces, split, nonempty, payload, payloads⟩ =>
      have some : piece ≠ [] := nonempty piece List.mem_cons_self
      have total : (UInt32.ofNat message.length).toNat = message.length := by
        have bound : kMaxFragmentBuffer.toNat < 4294967296 := by decide
        rw [UInt32.toNat_ofNat']
        omega
      have length := congrArg List.length split
      rw [List.length_append] at length
      have positive := List.length_pos_iff.mpr some
      have started := buffers_first empty payload
        (by
          intro zero
          rw [zero, UInt32.toNat_zero] at total
          omega)
        (by rwa [UInt32.le_iff_toNat_le, total])
      rw [total] at started
      have buffers := started.addFragments some payloads (by omega)
      rw [← split] at buffers
      refine ⟨buffers, buffers.isComplete_iff.mpr ⟨?_, rfl⟩⟩
      rw [split]
      simp [some]

end EQPacketFragmentSequence

namespace EQPacketStream

-----------------------------------------------------------------------------------------
-- Carriers at the stream
-----------------------------------------------------------------------------------------

/-- The ways to send application messages, with the neighbours they travel with. -/
inductive Carrier
  | packet (m : Message)
  | combined (records : List Content)
  | appCombined (records : List AppRecord)
  | oversized (m : Message)

namespace Carrier

/-- What the sender put into the carrier, in order. -/
def contents : Carrier → List Content
  | packet m => [.message m]
  | combined records => records
  | appCombined records => records.map (fun r => .message r.message)
  | oversized m => [.message m]

/-- The carrier escapes no opcode inside an `OP_Combined`. -/
def Plain : Carrier → Prop
  | combined records => ∀ c ∈ records, c.isSpecial = false
  | _ => True

/-- The packet is this carrier, as the stream finds it: sequenced ones are next in line, and
an oversized message is completed by its last fragment.
-/
def HeldBy (s : EQPacketStream) (q : EQProtocolPacket) : Carrier → Prop
  | packet m => q.netOp = OP_Packet ∧ q.arqSeq = s.arqSeqExp ∧ PayloadIs q m.wire
  | combined records =>
      q.netOp = OP_Combined
      ∧ (∀ c ∈ records, c.FitsCombined)
      ∧ PayloadIs q (records.flatMap Content.combinedWire)
  | appCombined records =>
      q.netOp = OP_AppCombined
      ∧ (∀ r ∈ records, r.Fits)
      ∧ PayloadIs q (records.flatMap AppRecord.wire)
  | oversized m =>
      q.netOp = OP_Oversized
      ∧ q.arqSeq = s.arqSeqExp
      ∧ m.wire.length ≤ kMaxFragmentBuffer.toNat
      ∧ ∃ earlier start,
          start.dataSize = 0
          ∧ s.fragment = EQPacketFragmentSequence.addFragments start earlier
          ∧ FragmentsOf m.wire (earlier ++ [q])

end Carrier

/-- Processing of an inner packet that only notes it down. -/
def noteInner (inner : EQProtocolPacket) : StreamM Unit := do
  let s ← Traced.get
  Traced.emit (.processing s inner)

/-- The event hands on a message or an inner packet. -/
def handedOn : StreamEvent → Option Content
  | .dispatchPacket call => some (Item.message call).content
  | .processing _ inner => some (Item.subpacket inner).content
  | _ => none

/-- What a packet hands on: the calls of `dispatchPacket` and of `processPacket` its branch of
the switch makes, in order.
-/
def HandsOn (context : StreamContext) (s : EQPacketStream) (packet : EQProtocolPacket)
    (header : Option IPHeader) (contents : List Content)
    : Prop :=
  ∃ t w, processNetOpCode context noteInner packet header s = .ok ((), t, w)
    ∧ w.filterMap handedOn = contents

variable {context : StreamContext}

/-- The event an item is noted down as. -/
def noted (s : EQPacketStream) : Item → StreamEvent
  | .message call => .dispatchPacket call
  | .subpacket inner => .processing s inner

theorem perform_noteInner (item : Item) (s : EQPacketStream)
    : perform noteInner item s = .ok ((), s, [noted s item]) := by
  cases item <;> rfl

theorem handedOn_noted (s : EQPacketStream) (item : Item)
    : handedOn (noted s item) = some item.content := by
  cases item <;> rfl

/-- The items of a combined packet are handed on one after another, by induction on them. -/
theorem forEach_noteInner (items : List Item) (s : EQPacketStream)
    : Traced.forEach (perform noteInner) items s = .ok ((), s, items.map (noted s)) := by
  induction items with
  | nil => rfl
  | cons item rest ih =>
      simp only [Traced.forEach]
      rw [Traced.bind_run_ok (perform_noteInner item s), ih]
      rfl

theorem filterMap_noted (items : List Item) (s : EQPacketStream)
    : (items.map (noted s)).filterMap handedOn = items.map Item.content := by
  induction items with
  | nil => rfl
  | cons item rest ih => simp [handedOn_noted, ih]

/-- A computation that completes hands on exactly one list of contents. -/
theorem handsOn_iff {s : EQPacketStream} {packet : EQProtocolPacket} {header : Option IPHeader}
    {actual contents : List Content} (actually : HandsOn context s packet header actual)
    : HandsOn context s packet header contents ↔ actual = contents := by
  obtain ⟨t, w, run, same⟩ := actually
  constructor
  · intro other
    obtain ⟨t', w', run', same'⟩ := other
    rw [run] at run'
    cases run'
    exact same.symm.trans same'
  · intro equal
    subst equal
    exact ⟨t, w, run, same⟩

theorem combined_handsOn {s : EQPacketStream} {packet : EQProtocolPacket}
    {header : Option IPHeader} (kind : packet.netOp = OP_Combined)
    : HandsOn context s packet header ((unrollCombined packet).map Item.content) := by
  refine ⟨s, _, ?_, filterMap_noted _ s⟩
  rw [processNetOpCode_combined kind, forEach_noteInner]

theorem appCombined_handsOn {s : EQPacketStream} {packet : EQProtocolPacket}
    {header : Option IPHeader} (kind : packet.netOp = OP_AppCombined)
    : HandsOn context s packet header ((unrollAppCombined packet).map Item.content) := by
  refine ⟨s, _, ?_, filterMap_noted _ s⟩
  rw [processNetOpCode_appCombined kind, forEach_noteInner]

theorem packet_handsOn {s : EQPacketStream} {packet : EQProtocolPacket}
    {header : Option IPHeader} (kind : packet.netOp = OP_Packet)
    (next : packet.arqSeq = s.arqSeqExp)
    : HandsOn context s packet header [(unwrapPacket packet).content] := by
  refine ⟨s.advanced, _, ?_, filterMap_noted [unwrapPacket packet] s.advanced⟩
  rw [processNetOpCode_packet kind, processSequenced_expected next, perform_noteInner]
  rfl

/-- The content of a completed message is handed on as one item. -/
theorem processFragment_noteInner (message : EQPacketFragmentSequence) (s : EQPacketStream)
    : processFragment noteInner message s
      = .ok ((), s, [noted s (unwrapFragment message.data message.dataSize)]) := by
  have run := perform_noteInner (unwrapFragment message.data message.dataSize) s
  have kept (item : Item) : leavesMessage message s (noted s item) = true := by
    cases item <;> rfl
  rw [processFragment, Traced.bind_run_ok (Traced.listen_eq_ok.mpr ⟨run, rfl⟩)]
  simp [kept]

theorem oversized_handsOn {s : EQPacketStream} {packet : EQProtocolPacket}
    {header : Option IPHeader} (kind : packet.netOp = OP_Oversized)
    (next : packet.arqSeq = s.arqSeqExp)
    (complete : (s.fragment.addFragment packet).1.isComplete = true)
    : HandsOn context s packet header
        [(unwrapFragment (s.fragment.addFragment packet).1.data
          (s.fragment.addFragment packet).1.dataSize).content] := by
  unfold HandsOn
  rw [processNetOpCode_oversized kind, processOversized_expected next,
    Traced.bind_run_ok (forEach_fragmentCopy _ _), Traced.when_pos complete]
  generalize (s.fragment.addFragment packet).1 = message
  generalize (s.fragment.addFragment packet).2.toList = writes
  simp only [Traced.emit_bind_run]
  rw [Traced.bind_run_ok (processFragment_noteInner message _)]
  refine ⟨_, _, rfl, ?_⟩
  have copies : (writes.map StreamEvent.fragmentCopy).filterMap handedOn = [] := by
    simp [handedOn]
  have completed (bytes : Bytes) : handedOn (.completedOversized bytes) = none := rfl
  simp only [List.filterMap_append, copies, List.nil_append, List.append_nil,
    List.filterMap_cons, completed, handedOn_noted, List.filterMap_nil]

/-- Whatever carries an application message, it is handed on with its opcode and its body, and
its neighbours as they were sent, if and only if the carrier is not an `OP_Combined` with a
special opcode among its records.
-/
theorem carrier_handsOn_iff (context : StreamContext) (header : Option IPHeader)
    {s : EQPacketStream} {packet : EQProtocolPacket} (carrier : Carrier)
    (held : carrier.HeldBy s packet)
    : HandsOn context s packet header carrier.contents ↔ carrier.Plain := by
  cases carrier with
  | packet m =>
      obtain ⟨kind, next, length, tail, payload⟩ := held
      have content := unwrap_content m tail packet.payloadLength
        (fun n within small => payloadLength_sub length within small)
      rw [handsOn_iff (packet_handsOn kind next), unwrapPacket, payload, content]
      exact iff_of_true rfl trivial
  | combined records =>
      obtain ⟨kind, fits, length, tail, payload⟩ := held
      rw [handsOn_iff (combined_handsOn kind), unrollCombined, length, payload]
      exact unrollCombined_contents_iff fits tail
  | appCombined records =>
      obtain ⟨kind, fits, length, tail, payload⟩ := held
      rw [handsOn_iff (appCombined_handsOn kind), unrollAppCombined, length, payload]
      exact iff_of_true (unrollAppCombined_contents fits tail) trivial
  | oversized m =>
      obtain ⟨kind, next, small, earlier, start, empty, sequence, fragments⟩ := held
      obtain ⟨buffers, complete⟩ :=
        EQPacketFragmentSequence.addFragments_whole empty small fragments
      rw [EQPacketFragmentSequence.addFragments_append, ← sequence] at buffers complete
      obtain ⟨rest, data⟩ := buffers.content
      have bound : kMaxFragmentBuffer.toNat < 4294967296 := by decide
      have content := unwrap_content m rest (UInt32.ofNat m.wire.length)
        (fun n within _ => toSizeT_sub within (by omega))
      rw [handsOn_iff (oversized_handsOn kind next complete), unwrapFragment, data,
        buffers.filled, content]
      exact iff_of_true rfl trivial

/-- An ordinary message, and one whose opcode starts with a zero byte. -/
def ordinaryMessage : Message := ⟨0x0605, [0x01]⟩

def specialMessage : Message := ⟨0x0600, [0x01]⟩

/-- A combined packet of the given records, as the stream unrolls it. -/
def combinedPacket (records : List Content) : EQProtocolPacket :=
  .ofSubpacket ([0x00, 0x03] ++ records.flatMap Content.combinedWire)
    (UInt32.ofNat (2 + (records.flatMap Content.combinedWire).length))

theorem carrier_handsOn_ordinary
    : HandsOn alone boxStream (combinedPacket [.message ordinaryMessage, .message ordinaryMessage])
        none [.message ordinaryMessage, .message ordinaryMessage] := by
  refine (carrier_handsOn_iff alone none
    (.combined [.message ordinaryMessage, .message ordinaryMessage]) ?_).mpr ?_
  · refine ⟨by decide, ?_, by decide, [], by decide⟩
    intro c member
    simp only [List.mem_cons, List.not_mem_nil, or_false, or_self] at member
    subst member
    exact (by decide : ordinaryMessage.wire.length < 256)
  · intro c member
    simp only [List.mem_cons, List.not_mem_nil, or_false, or_self] at member
    subst member
    decide

/-- A special opcode in front of another message: its own body comes out too long, and its
neighbour is not what was sent.
-/
theorem carrier_handsOn_special
    : (Carrier.combined [.message specialMessage, .message ordinaryMessage]).HeldBy boxStream
          (combinedPacket [.message specialMessage, .message ordinaryMessage])
      ∧ ¬ HandsOn alone boxStream
          (combinedPacket [.message specialMessage, .message ordinaryMessage]) none
          [.message specialMessage, .message ordinaryMessage] := by
  refine ⟨⟨by decide, ?_, by decide, [], by decide⟩, ?_⟩
  · intro c member
    simp only [List.mem_cons, List.not_mem_nil, or_false] at member
    rcases member with rfl | rfl
    · exact (by decide : specialMessage.wire.length < 256)
    · exact (by decide : ordinaryMessage.wire.length < 256)
  · rw [handsOn_iff (combined_handsOn (by decide))]
    decide

end EQPacketStream

end Scry
