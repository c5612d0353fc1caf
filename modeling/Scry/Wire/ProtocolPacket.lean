import Scry.Wire.Checksum

/-! Protocol packets: the framing a UDP payload carries, before and after decompression.
Header layout, checksum placement and the sequence number follow the source's constructor
and `decode`; the inflater itself is a parameter.
-/

namespace Scry

-----------------------------------------------------------------------------------------
-- Net opcodes, read in host order from network-order bytes
-----------------------------------------------------------------------------------------

def OP_SessionRequest : UInt16 := 0x0100
def OP_SessionResponse : UInt16 := 0x0200
def OP_Combined : UInt16 := 0x0300
def OP_SessionDisconnect : UInt16 := 0x0500
def OP_KeepAlive : UInt16 := 0x0600
def OP_SessionStatRequest : UInt16 := 0x0700
def OP_SessionStatResponse : UInt16 := 0x0800
def OP_Packet : UInt16 := 0x0900
def OP_Oversized : UInt16 := 0x0d00
def OP_AckFuture : UInt16 := 0x1100
def OP_Ack : UInt16 := 0x1500
def OP_AppCombined : UInt16 := 0x1900
def OP_AckAfterDisconnect : UInt16 := 0x1d00

/-- An opcode whose first wire byte is not zero belongs to the application. -/
def IS_APP_OPCODE (opcode : UInt16) : Bool := (opcode &&& 0x00ff) != 0

def IS_NET_OPCODE (opcode : UInt16) : Bool := (opcode &&& 0x00ff) == 0

/-- The flag byte of a compressed packet. -/
def PROTOCOL_FLAG_COMPRESSED : UInt8 := 0x5a

/-- The packet kinds that carry a flag byte and a trailing checksum on the wire. -/
def isFramedOpCode (netOp : UInt16) : Bool :=
  netOp == OP_SessionStatRequest || netOp == OP_SessionStatResponse || netOp == OP_Combined
    || netOp == OP_Packet || netOp == OP_Oversized || netOp == OP_AppCombined
    || IS_APP_OPCODE netOp

-----------------------------------------------------------------------------------------
-- Packets
-----------------------------------------------------------------------------------------

/-- `EQProtocolPacket`: raw bytes from the net opcode on, and the payload inside them or
inside the decompressed buffer.
-/
structure EQProtocolPacket where
  packet : Bytes
  length : UInt32
  netOp : UInt16
  flags : UInt8
  payload : Bytes
  bAllocedPayload : Bool
  bDecoded : Bool
  payloadLength : UInt32
  rawPayload : Bytes
  rawPayloadLength : UInt32
  arqSeq : UInt16
  subpacket : Bool
  deriving DecidableEq

namespace EQProtocolPacket

def hasFlags (p : EQProtocolPacket) : Bool :=
  if p.subpacket then false else isFramedOpCode p.netOp

def hasCRC (p : EQProtocolPacket) : Bool :=
  if p.subpacket then false else isFramedOpCode p.netOp

def hasArqSeq (p : EQProtocolPacket) : Bool :=
  p.netOp == OP_Packet || p.netOp == OP_Oversized

/-- The trailing checksum, in network order at the end of the raw packet. -/
def crc (p : EQProtocolPacket) : UInt16 :=
  if p.length ≥ 2 then eqntohuint16 (p.packet.drop (p.length - 2).toNat) else 0xdead

/-- `rawPacketLength`, which narrows to 16 bits. -/
def rawPacketLength (p : EQProtocolPacket) : UInt16 := p.length.toUInt16

/-- The bytes of the payload: its declared length, read from the payload pointer. -/
def payloadBytes (p : EQProtocolPacket) : Bytes := readBytes p.payload p.payloadLength.toNat

/-- Move the sequence number off the front of the payload. -/
def takeArqSeq (p : EQProtocolPacket) : EQProtocolPacket :=
  { p with
    arqSeq := eqntohuint16 p.payload
    payload := p.payload.drop 2
    payloadLength := p.payloadLength - 2 }

/-- `EQProtocolPacket::init`: line up flags and payload of a raw packet. A compressed packet
stays undecoded; its payload pointer is not meaningful until `decode`.
-/
def init (packet : Bytes) (length : UInt32) (subpacket : Bool) : EQProtocolPacket :=
  let raw : EQProtocolPacket := {
    packet, length, subpacket
    netOp := eqtohuint16 packet
    flags := 0
    payload := []
    bAllocedPayload := false
    bDecoded := false
    payloadLength := 0
    rawPayload := []
    rawPayloadLength := 0
    arqSeq := 0
  }
  let framed : EQProtocolPacket :=
    if !raw.hasFlags then
      let rawPayload := packet.drop 2
      let rawPayloadLength := length - 2 - (if raw.hasCRC then 2 else 0)
      { raw with
        rawPayload, rawPayloadLength
        payload := rawPayload
        payloadLength := rawPayloadLength
        bDecoded := true }
    else
      let flagged : EQProtocolPacket :=
        if IS_APP_OPCODE raw.netOp then
          -- The flags split the opcode: its second byte follows them.
          { raw with
            flags := byteAt packet 1
            netOp :=
              UInt16.ofNat ((byteAt packet 2).toNat * 256 + (byteAt packet 0).toNat) }
        else { raw with flags := byteAt packet 2 }
      let rawPayload := packet.drop 3
      let rawPayloadLength := length - 2 - 1 - (if flagged.hasCRC then 2 else 0)
      if flagged.flags != PROTOCOL_FLAG_COMPRESSED then
        { flagged with
          rawPayload, rawPayloadLength
          payload := rawPayload
          payloadLength := rawPayloadLength
          bDecoded := true }
      else { flagged with rawPayload, rawPayloadLength }
  if framed.hasArqSeq && framed.bDecoded then framed.takeArqSeq else framed

/-- The outermost packet of a UDP payload. -/
def ofDatagram (datagram : Bytes) : EQProtocolPacket :=
  init datagram (UInt32.ofNat datagram.length) false

/-- A packet carried inside another one. -/
def ofSubpacket (packet : Bytes) (length : UInt32) : EQProtocolPacket := init packet length true

/-- `EQProtocolPacket::decode`: inflate a compressed packet into a buffer of at most
`maxPayloadLength` bytes. `none` is the source's `false`.
-/
def decode (uncompress : Bytes → Nat → Option Bytes) (maxPayloadLength : UInt32)
    (p : EQProtocolPacket)
    : Option EQProtocolPacket :=
  if p.bDecoded then some p
  else if p.hasFlags && p.flags == PROTOCOL_FLAG_COMPRESSED then
    let trailer : UInt32 := if p.hasCRC then 2 else 0
    let deflated :=
      if IS_APP_OPCODE p.netOp then readBytes (p.packet.drop 2) (p.length - 1 - 1 - trailer).toNat
      else readBytes (p.packet.drop 3) (p.length - 2 - 1 - trailer).toNat
    match uncompress deflated maxPayloadLength.toNat with
    | none => none
    | some inflated =>
        let inflatedLength := UInt32.ofNat inflated.length
        let opened : EQProtocolPacket :=
          if IS_APP_OPCODE p.netOp then
            { p with
              rawPayload := inflated
              rawPayloadLength := inflatedLength
              bAllocedPayload := true
              netOp :=
                UInt16.ofNat ((byteAt inflated 0).toNat * 256 + (byteAt p.packet 0).toNat)
              payload := inflated.drop 1
              payloadLength := inflatedLength - 1 }
          else
            { p with
              rawPayload := inflated
              rawPayloadLength := inflatedLength
              bAllocedPayload := true
              payload := inflated
              payloadLength := inflatedLength }
        let aligned := if opened.hasArqSeq then opened.takeArqSeq else opened
        some { aligned with bDecoded := true }
  else some p

/-- The deep copy `EQProtocolPacket(packet, true)`: own buffers of exactly the recorded
lengths, with the payload pointers at their old offsets.
-/
def copy (p : EQProtocolPacket) : EQProtocolPacket :=
  let packet := readBytes p.packet p.length.toNat
  if p.bAllocedPayload then
    let rawPayload := readBytes p.rawPayload p.rawPayloadLength.toNat
    { p with
      packet, rawPayload
      payload := rawPayload.drop (p.rawPayload.length - p.payload.length) }
  else
    { p with
      packet
      rawPayload := packet.drop (p.packet.length - p.rawPayload.length)
      payload := packet.drop (p.packet.length - p.payload.length) }

/-- `EQPacketStream::calculateCRC` under a session key; a packet too short to hold a
checksum gets zero.
-/
def calculateCRC (p : EQProtocolPacket) (sessionKey : UInt32) : UInt16 :=
  if p.rawPacketLength < 2 then 0
  else calcCRC16 p.packet (p.rawPacketLength - 2).toUInt32 sessionKey

/-- The checksum test of a received or replaced packet. -/
def passesCRC (p : EQProtocolPacket) (sessionKey : UInt32) : Bool :=
  !p.hasCRC || p.calculateCRC sessionKey == p.crc

-----------------------------------------------------------------------------------------
-- What a deep copy preserves
-----------------------------------------------------------------------------------------

@[simp]
theorem copy_netOp (p : EQProtocolPacket) : p.copy.netOp = p.netOp := by
  unfold copy
  split <;> rfl

@[simp]
theorem copy_arqSeq (p : EQProtocolPacket) : p.copy.arqSeq = p.arqSeq := by
  unfold copy
  split <;> rfl

@[simp]
theorem copy_subpacket (p : EQProtocolPacket) : p.copy.subpacket = p.subpacket := by
  unfold copy
  split <;> rfl

@[simp]
theorem copy_length (p : EQProtocolPacket) : p.copy.length = p.length := by
  unfold copy
  split <;> rfl

@[simp]
theorem copy_payloadLength (p : EQProtocolPacket) : p.copy.payloadLength = p.payloadLength := by
  unfold copy
  split <;> rfl

theorem copy_packet (p : EQProtocolPacket)
    : p.copy.packet = readBytes p.packet p.length.toNat := by
  unfold copy
  split <;> rfl

@[simp]
theorem copy_hasCRC (p : EQProtocolPacket) : p.copy.hasCRC = p.hasCRC := by simp [hasCRC]

/-- The copied trailing checksum is read inside the copied buffer. -/
@[simp]
theorem copy_crc (p : EQProtocolPacket) : p.copy.crc = p.crc := by
  simp only [crc, copy_length, copy_packet]
  split
  · rename_i long
    have long' : 2 ≤ p.length.toNat := by simpa [UInt32.le_iff_toNat_le] using long
    have start : (p.length - 2).toNat = p.length.toNat - 2 := by
      rw [UInt32.toNat_sub_of_le _ _ long]
      rfl
    have byte (i : Nat) (hi : i < 2)
        : byteAt ((readBytes p.packet p.length.toNat).drop (p.length - 2).toNat) i
          = byteAt (p.packet.drop (p.length - 2).toNat) i := by
      have below : p.length.toNat - 2 + i < p.length.toNat := by omega
      have inside := byteAt_readBytes p.packet below
      simpa [byteAt, start, List.getElem?_drop] using inside
    simp only [eqntohuint16, byte 0 (by omega), byte 1 (by omega)]
  · rfl

/-- The checksum of a copy covers the same bytes. -/
@[simp]
theorem copy_calculateCRC (p : EQProtocolPacket) (sessionKey : UInt32)
    : p.copy.calculateCRC sessionKey = p.calculateCRC sessionKey := by
  simp only [calculateCRC, rawPacketLength, copy_length, copy_packet]
  by_cases short : p.length.toUInt16 < 2
  · simp only [short, if_true]
  · simp only [short, if_false]
    refine calcCRC16_readBytes _ _ ?_
    have narrowed : p.length.toUInt16.toNat ≤ p.length.toNat := by
      rw [UInt32.toNat_toUInt16]
      exact Nat.mod_le _ _
    have shorter : (p.length.toUInt16 - 2).toNat ≤ p.length.toUInt16.toNat := by
      rw [UInt16.toNat_sub_of_le _ _ (UInt16.not_lt.mp short)]
      omega
    rw [UInt16.toNat_toUInt32]
    exact Nat.le_trans shorter narrowed

@[simp]
theorem copy_passesCRC (p : EQProtocolPacket) (sessionKey : UInt32)
    : p.copy.passesCRC sessionKey = p.passesCRC sessionKey := by
  simp [passesCRC]

/-- A packet keeps the bytes it was made from. -/
theorem init_packet (packet : Bytes) (length : UInt32) (subpacket : Bool)
    : (init packet length subpacket).packet = packet := by
  unfold init
  dsimp only [takeArqSeq]
  split_ifs <;> rfl

/-- A packet keeps the length it was made with. -/
theorem init_length (packet : Bytes) (length : UInt32) (subpacket : Bool)
    : (init packet length subpacket).length = length := by
  unfold init
  dsimp only [takeArqSeq]
  split_ifs <;> rfl

/-- The payload lies inside the raw packet, or inside the decompressed buffer: the pointer
is an offset into it and the declared length stays within the recorded buffer length.
-/
def Intact (p : EQProtocolPacket) : Prop :=
  ∃ offset,
    offset + p.payloadLength.toNat
        ≤ (if p.bAllocedPayload then p.rawPayloadLength else p.length).toNat
    ∧ offset ≤ (if p.bAllocedPayload then p.rawPayload else p.packet).length
    ∧ p.payload = (if p.bAllocedPayload then p.rawPayload else p.packet).drop offset

/-- A read at an offset inside a copied buffer is a read of the original. -/
theorem readBytes_drop_readBytes {data : Bytes} {offset n m : Nat} (h : offset + n ≤ m)
    : readBytes ((readBytes data m).drop offset) n = readBytes (data.drop offset) n := by
  apply List.ext_getElem (by simp)
  intro i hl hr
  have below : i < n := by simpa using hl
  have value (l : Bytes) (hi : i < l.length) : l[i] = byteAt l i := by simp [byteAt, hi]
  rw [value _ hl, value _ hr, byteAt_readBytes _ below, byteAt_readBytes _ below]
  have wider : offset + i < m := by omega
  have inside := byteAt_readBytes data wider
  simpa [byteAt, List.getElem?_drop] using inside

/-- The payload of an intact packet survives the copy into the cache. -/
theorem Intact.copy_payloadBytes {p : EQProtocolPacket} (h : p.Intact)
    : p.copy.payloadBytes = p.payloadBytes := by
  obtain ⟨offset, inside, within, pointer⟩ := h
  have length := copy_payloadLength p
  simp only [payloadBytes, length]
  unfold copy
  cases owned : p.bAllocedPayload
  · simp only [owned, Bool.false_eq_true, if_false] at inside within pointer ⊢
    have start : p.packet.length - p.payload.length = offset := by
      rw [pointer, List.length_drop]
      omega
    rw [start, readBytes_drop_readBytes inside, pointer]
  · simp only [owned, if_true] at inside within pointer ⊢
    have start : p.rawPayload.length - p.payload.length = offset := by
      rw [pointer, List.length_drop]
      omega
    rw [start, readBytes_drop_readBytes inside, pointer]

end EQProtocolPacket

end Scry
