import Scry.Wire.ProtocolPacket

/-! Where the carriers of application messages put them: alone behind an opcode, or as records
of a combined packet. What a carrier holds is computed here from its bytes; acting on it is
left to the stream.
-/

namespace Scry

/-- The arguments of one `dispatchPacket` call: data pointer, length and opcode. -/
structure DispatchCall where
  opcode : UInt16
  data : Bytes
  len : Nat
  deriving DecidableEq

/-- The bytes a dispatched message is made of. -/
def DispatchCall.body (call : DispatchCall) : Bytes := readBytes call.data call.len

/-- What a carrier hands on: an application message, or a packet of its own. -/
inductive Item
  | message (call : DispatchCall)
  | subpacket (packet : EQProtocolPacket)
  deriving DecidableEq

/-- The content of an `OP_Packet` or of a completed `OP_Oversized`. Both branches split it by
its opcode in the same way; `remaining n` is the length they dispatch behind `n` bytes.
-/
def unwrap (data : Bytes) (length : UInt32) (remaining : Nat → Nat) : Item :=
  let subOpCode := eqtohuint16 data
  if subOpCode = 0 then
    -- App opcode below 0x00ff: skip the first byte, the opcode is bytes 2 and 3.
    .message ⟨eqtohuint16 (data.drop 1), data.drop 3, remaining 3⟩
  else if IS_NET_OPCODE subOpCode then .subpacket (.ofSubpacket data length)
  else .message ⟨subOpCode, data.drop 2, remaining 2⟩

/-- The content of an expected `OP_Packet`; its length is a `uint32_t`. -/
def unwrapPacket (packet : EQProtocolPacket) : Item :=
  unwrap packet.payload packet.payloadLength
    (fun n => (packet.payloadLength - UInt32.ofNat n).toNat)

/-- The content of a completed fragment buffer; its size is a `size_t`. -/
def unwrapFragment (data : Bytes) (size : Nat) : Item :=
  unwrap data (UInt32.ofNat size) (fun n => toSizeT (size - n))

/-- One record of an `OP_Combined`, and the bytes the pointer moves on by. -/
def combinedRecord (data : Bytes) : Item × Nat :=
  let subpacketLength := byteAt data 0
  let subpacket := data.drop 1
  let subOpCode := eqtohuint16 subpacket
  if subOpCode = 0 then
    -- The pointer skips the zero byte, the length keeps counting it.
    (.message
      ⟨eqtohuint16 (subpacket.drop 1), subpacket.drop 3, toSizeT (subpacketLength.toNat - 2)⟩,
      2 + subpacketLength.toNat)
  else if IS_NET_OPCODE subOpCode then
    (.subpacket (.ofSubpacket subpacket subpacketLength.toUInt32), 1 + subpacketLength.toNat)
  else
    (.message ⟨subOpCode, subpacket.drop 2, toSizeT (subpacketLength.toNat - 2)⟩,
      1 + subpacketLength.toNat)

/-- One record of an `OP_AppCombined`, and the bytes the pointer moves on by. A first length
byte of `0xff` announces a two-byte length.
-/
def appCombinedRecord (data : Bytes) : Item × Nat :=
  let subpacketLength := byteAt data 0
  if subpacketLength ≠ 0xff then
    let subpacket := data.drop 1
    if eqtohuint16 subpacket = 0 then
      let shorter := subpacketLength - 1
      (.message
        ⟨eqtohuint16 (subpacket.drop 1), subpacket.drop 3, toSizeT (shorter.toNat - 2)⟩,
        2 + shorter.toNat)
    else
      (.message ⟨eqtohuint16 subpacket, subpacket.drop 2, toSizeT (subpacketLength.toNat - 2)⟩,
        1 + subpacketLength.toNat)
  else
    let longOne := eqntohuint16 (data.drop 1)
    let subpacket := data.drop 3
    if eqtohuint16 subpacket = 0 then
      let shorter := longOne - 1
      (.message
        ⟨eqtohuint16 (subpacket.drop 1), subpacket.drop 3, toSizeT (shorter.toNat - 2)⟩,
        4 + shorter.toNat)
    else
      (.message ⟨eqtohuint16 subpacket, subpacket.drop 2, toSizeT (longOne.toNat - 2)⟩,
        3 + longOne.toNat)

/-- The loop over the records: while `remaining` payload bytes are left, take one record and
move on. Every record takes at least its length byte, so `steps` bounds the loop.
-/
def unrollRecords (record : Bytes → Item × Nat) : Nat → Nat → Bytes → List Item
  | 0, _, _ => []
  | steps + 1, remaining, data =>
      if remaining = 0 then []
      else
        (record data).1
          :: unrollRecords record steps (remaining - (record data).2) (data.drop (record data).2)

/-- The items of an `OP_Combined`. -/
def unrollCombined (packet : EQProtocolPacket) : List Item :=
  unrollRecords combinedRecord packet.payloadLength.toNat packet.payloadLength.toNat
    packet.payload

/-- The items of an `OP_AppCombined`. -/
def unrollAppCombined (packet : EQProtocolPacket) : List Item :=
  unrollRecords appCombinedRecord packet.payloadLength.toNat packet.payloadLength.toNat
    packet.payload

-----------------------------------------------------------------------------------------
-- The loop over the records
-----------------------------------------------------------------------------------------

/-- A record loop takes its records one after another, whatever bound it was given. -/
theorem unrollRecords_steps {record : Bytes → Item × Nat} (moves : ∀ data, 0 < (record data).2)
    {steps more remaining : Nat} {data : Bytes} (enough : remaining ≤ steps)
    (enough' : remaining ≤ more)
    : unrollRecords record steps remaining data = unrollRecords record more remaining data := by
  induction steps generalizing more remaining data with
  | zero =>
      have done : remaining = 0 := by omega
      subst done
      cases more <;> simp [unrollRecords]
  | succ steps ih =>
      cases more with
      | zero =>
          have done : remaining = 0 := by omega
          simp [unrollRecords, done]
      | succ more =>
          simp only [unrollRecords]
          split
          · rfl
          · have taken := moves data
            rw [@ih more _ _ (by omega) (by omega)]

theorem combinedRecord_moves (data : Bytes) : 0 < (combinedRecord data).2 := by
  simp only [combinedRecord]
  split_ifs <;> simp only <;> omega

theorem appCombinedRecord_moves (data : Bytes) : 0 < (appCombinedRecord data).2 := by
  simp only [appCombinedRecord]
  split_ifs <;> simp only <;> omega

/-- Every record of an `OP_AppCombined` is an application message. -/
theorem appCombinedRecord_message (data : Bytes)
    : ∃ call, (appCombinedRecord data).1 = .message call := by
  simp only [appCombinedRecord]
  split_ifs <;> exact ⟨_, rfl⟩

end Scry
