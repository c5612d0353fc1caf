import Scry.PacketStream.Carriers
import Scry.PacketStream.PayloadBounds

/-! The ranges a carrier hands on, as offsets from its payload.
The source moves a raw pointer and subtracts from unsigned lengths; what it passes on lies in the
payload exactly when the payload is made of whole records, each with its opcode.
-/

namespace Scry

/-- A range that is handed on: the offset its data starts at, and the record it was cut by,
where the record's length bytes end, the length they declare and the bytes of its opcode.
-/
structure Handed where
  start : Nat
  declared : Nat
  opcodeLength : Nat
  offset : Nat
  item : Item
  deriving DecidableEq

/-- The length an item is handed on with. -/
def Item.length : Item → Nat
  | .message call => call.len
  | .subpacket packet => packet.length.toNat

/-- The pointer an item is handed on with. -/
def Item.pointer : Item → Bytes
  | .message call => call.data
  | .subpacket packet => packet.packet

/-- The payload of an inner packet has not wrapped; a message has no header of its own. -/
def Item.Unwrapped : Item → Prop
  | .message _ => True
  | .subpacket packet => packet.payloadLength ≤ packet.length

/-- The record holds its opcode and ends with the payload at the latest, and the range that
is handed on lies in the payload.
-/
structure Handed.Inside (h : Handed) (payloadLength : Nat) : Prop where
  opcode : h.opcodeLength ≤ h.declared
  record : h.start + h.declared ≤ payloadLength
  range : h.offset + h.item.length ≤ payloadLength
  unwrapped : h.item.Unwrapped

/-- An opcode that starts with two zero bytes is escaped by the first. -/
def opcodeLength (data : Bytes) : Nat := if eqtohuint16 data = 0 then 3 else 2

/-- A record of an `OP_Combined` at a cursor. -/
def combinedHanded (cursor : Nat) (data : Bytes) : Handed :=
  let subOpCode := eqtohuint16 (data.drop 1)
  { start := cursor + 1
    declared := (byteAt data 0).toNat
    opcodeLength := opcodeLength (data.drop 1)
    offset :=
      cursor + 1 + if subOpCode = 0 then 3 else if IS_NET_OPCODE subOpCode then 0 else 2
    item := (combinedRecord data).1 }

/-- A record of an `OP_AppCombined` at a cursor. -/
def appCombinedHanded (cursor : Nat) (data : Bytes) : Handed :=
  if byteAt data 0 ≠ 0xff then
    { start := cursor + 1
      declared := (byteAt data 0).toNat
      opcodeLength := opcodeLength (data.drop 1)
      offset := cursor + 1 + opcodeLength (data.drop 1)
      item := (appCombinedRecord data).1 }
  else
    { start := cursor + 3
      declared := (eqntohuint16 (data.drop 1)).toNat
      opcodeLength := opcodeLength (data.drop 3)
      offset := cursor + 3 + opcodeLength (data.drop 3)
      item := (appCombinedRecord data).1 }

/-- The content of an `OP_Packet` or of a completed message of `length` bytes. -/
def unwrapHanded (data : Bytes) (length : Nat) (item : Item) : Handed :=
  let subOpCode := eqtohuint16 data
  { start := 0
    declared := length
    opcodeLength := opcodeLength data
    offset := if subOpCode = 0 then 3 else if IS_NET_OPCODE subOpCode then 0 else 2
    item }

/-- The records a loop hands on, each at its cursor; `handed` describes a record and
`taken` is how far the cursor moves.
-/
def handRecords (handed : Nat → Bytes → Handed) (taken : Bytes → Nat)
    : Nat → Nat → Nat → Bytes → List Handed
  | 0, _, _, _ => []
  | steps + 1, remaining, cursor, data =>
      if remaining = 0 then []
      else
        handed cursor data
          :: handRecords handed taken steps (remaining - taken data) (cursor + taken data)
              (data.drop (taken data))

def combinedTaken (data : Bytes) : Nat := (combinedRecord data).2

def appCombinedTaken (data : Bytes) : Nat := (appCombinedRecord data).2

namespace EQPacketStream

/-- What the branch of a packet hands on in a state: the records of a combined packet, the
content of an expected packet, or of the message an expected fragment completes.
-/
def handed (s : EQPacketStream) (packet : EQProtocolPacket) : List Handed :=
  if packet.netOp = OP_Combined then
    handRecords combinedHanded combinedTaken packet.payloadLength.toNat
      packet.payloadLength.toNat 0 packet.payload
  else if packet.netOp = OP_AppCombined then
    handRecords appCombinedHanded appCombinedTaken packet.payloadLength.toNat
      packet.payloadLength.toNat 0 packet.payload
  else if packet.netOp = OP_Packet then
    if packet.arqSeq = s.arqSeqExp then
      [unwrapHanded packet.payload packet.payloadLength.toNat (unwrapPacket packet)]
    else []
  else if packet.netOp = OP_Oversized then
    let fragment := (s.fragment.addFragment packet).1
    if packet.arqSeq = s.arqSeqExp ∧ fragment.isComplete = true then
      [unwrapHanded fragment.data fragment.dataSize (unwrapFragment fragment.data fragment.dataSize)]
    else []
  else []

/-- The bytes a branch unwraps: the payload, or the completed message. -/
def unwrapped (s : EQPacketStream) (packet : EQProtocolPacket) : Bytes :=
  if packet.netOp = OP_Oversized then (s.fragment.addFragment packet).1.data else packet.payload

/-- Their number. -/
def unwrappedLength (s : EQPacketStream) (packet : EQProtocolPacket) : Nat :=
  if packet.netOp = OP_Oversized then (s.fragment.addFragment packet).1.dataSize
  else packet.payloadLength.toNat

/-- Everything a packet hands on is inside what it unwraps. -/
def HandsInside (s : EQPacketStream) (packet : EQProtocolPacket) : Prop :=
  ∀ h ∈ s.handed packet, h.Inside (s.unwrappedLength packet)

end EQPacketStream

-----------------------------------------------------------------------------------------
-- Offsets and pointers
-----------------------------------------------------------------------------------------

theorem combinedHanded_pointer (cursor : Nat) {payload data : Bytes}
    (there : data = payload.drop cursor)
    : (combinedHanded cursor data).item.pointer
      = payload.drop (combinedHanded cursor data).offset := by
  subst there
  simp only [combinedHanded, combinedRecord]
  split_ifs
  · simp [Item.pointer, Nat.add_assoc]
  · simp [Item.pointer, EQProtocolPacket.ofSubpacket, EQProtocolPacket.init_packet]
  · simp [Item.pointer, Nat.add_assoc]

theorem appCombinedHanded_pointer (cursor : Nat) {payload data : Bytes}
    (there : data = payload.drop cursor)
    : (appCombinedHanded cursor data).item.pointer
      = payload.drop (appCombinedHanded cursor data).offset := by
  subst there
  unfold appCombinedHanded
  split_ifs with short <;> simp only [appCombinedRecord, short, opcodeLength,
    not_false_eq_true, ne_eq, if_true, if_false]
  all_goals split <;> simp [Item.pointer, Nat.add_assoc]

theorem unwrapHanded_pointer (data : Bytes) (length : UInt32) (size : Nat)
    (remaining : Nat → Nat)
    : (unwrapHanded data size (unwrap data length remaining)).item.pointer
      = data.drop (unwrapHanded data size (unwrap data length remaining)).offset := by
  simp only [unwrapHanded, unwrap]
  split_ifs
  · simp [Item.pointer]
  · simp [Item.pointer, EQProtocolPacket.ofSubpacket, EQProtocolPacket.init_packet]
  · simp [Item.pointer]

/-- Every record of a loop points where its offset says, by induction on the loop. -/
theorem handRecords_pointer {handed : Nat → Bytes → Handed} {taken : Bytes → Nat}
    {payload : Bytes}
    (points
      : ∀ cursor data, data = payload.drop cursor →
          (handed cursor data).item.pointer = payload.drop (handed cursor data).offset)
    (steps remaining cursor : Nat) {data : Bytes} (there : data = payload.drop cursor)
    : ∀ h ∈ handRecords handed taken steps remaining cursor data,
        h.item.pointer = payload.drop h.offset := by
  induction steps generalizing remaining cursor data with
  | zero => simp [handRecords]
  | succ steps ih =>
      rw [handRecords]
      split
      · simp
      · rw [List.forall_mem_cons]
        refine ⟨points cursor data there, ih _ _ ?_⟩
        rw [there, List.drop_drop]

/-- The items of a loop are those the stream unrolls. -/
theorem handRecords_items {handed : Nat → Bytes → Handed} {record : Bytes → Item × Nat}
    (same : ∀ cursor data, (handed cursor data).item = (record data).1)
    (steps remaining cursor : Nat) (data : Bytes)
    : (handRecords handed (fun data => (record data).2) steps remaining cursor data).map Handed.item
      = unrollRecords record steps remaining data := by
  induction steps generalizing remaining cursor data with
  | zero => rfl
  | succ steps ih =>
      rw [handRecords, unrollRecords]
      split
      · rfl
      · rw [List.map_cons, same, ih]

end Scry
