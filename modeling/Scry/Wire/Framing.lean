import Scry.Wire.ProtocolPacket

/-! The sending side of the framing: datagrams as a peer puts them on the wire.
An uncompressed sequenced packet that is sealed with the session key is read back with its
own number and payload, and passes the checksum test under that key.
-/

namespace Scry

/-- Sixteen bits in network order. -/
def networkBytes16 (value : UInt16) : Bytes :=
  [UInt8.ofNat (value.toNat / 256), UInt8.ofNat (value.toNat % 256)]

/-- Thirty-two bits in network order. -/
def networkBytes32 (value : UInt32) : Bytes :=
  networkBytes16 (UInt16.ofNat (value.toNat / 65536))
    ++ networkBytes16 (UInt16.ofNat (value.toNat % 65536))

/-- The checksum a peer puts behind its bytes. -/
def trailer (bytes : Bytes) (sessionKey : UInt32) : Bytes :=
  networkBytes16 (calcCRC16 bytes (UInt32.ofNat bytes.length) sessionKey)

/-- The header of a sequenced packet: net opcode, flags, sequence number. -/
def sequencedHeader (kind : UInt8) (seq : UInt16) : Bytes := [0x00, kind, 0x00] ++ networkBytes16 seq

/-- An uncompressed sequenced packet; `kind` is `0x09` for `OP_Packet` and `0x0d` for
`OP_Oversized`.
-/
def sequencedDatagram (kind : UInt8) (seq : UInt16) (payload : Bytes) (sessionKey : UInt32)
    : Bytes :=
  sequencedHeader kind seq ++ payload ++ trailer (sequencedHeader kind seq ++ payload) sessionKey

/-- A session request, with no addresses of its own. -/
def sessionRequestDatagram (sessionId maxLength : UInt32) : Bytes :=
  [0x00, 0x01] ++ networkBytes32 0 ++ networkBytes32 sessionId ++ networkBytes32 maxLength
    ++ List.replicate 10 0

/-- A session response handing out a key. -/
def sessionResponseDatagram (sessionId key maxLength : UInt32) : Bytes :=
  [0x00, 0x02] ++ networkBytes32 sessionId ++ networkBytes32 key ++ [0, 0, 0]
    ++ networkBytes32 maxLength ++ networkBytes32 0

@[simp]
theorem networkBytes16_length (value : UInt16) : (networkBytes16 value).length = 2 := rfl

/-- Two bytes in network order are read back. -/
theorem eqntohuint16_networkBytes16 (value : UInt16) (tail : Bytes)
    : eqntohuint16 (networkBytes16 value ++ tail) = value := by
  apply UInt16.toNat_inj.mp
  have bound := value.toNat_lt
  simp only [eqntohuint16, networkBytes16, List.cons_append, byteAt_cons_zero, byteAt_cons_succ,
    UInt8.toNat_ofNat', UInt16.toNat_ofNat']
  omega

theorem eqntohuint16_trailer (bytes : Bytes) (sessionKey : UInt32)
    : eqntohuint16 (trailer bytes sessionKey)
      = calcCRC16 bytes (UInt32.ofNat bytes.length) sessionKey := by
  have read := eqntohuint16_networkBytes16
    (calcCRC16 bytes (UInt32.ofNat bytes.length) sessionKey) []
  rwa [List.append_nil] at read

@[simp]
theorem sequencedHeader_length (kind : UInt8) (seq : UInt16)
    : (sequencedHeader kind seq).length = 5 := rfl

@[simp]
theorem trailer_length (bytes : Bytes) (sessionKey : UInt32)
    : (trailer bytes sessionKey).length = 2 := rfl

theorem sequencedDatagram_length (kind : UInt8) (seq : UInt16) (payload : Bytes)
    (sessionKey : UInt32)
    : (sequencedDatagram kind seq payload sessionKey).length = payload.length + 7 := by
  simp [sequencedDatagram]
  omega

namespace EQProtocolPacket

/-- Reading a sequenced datagram back: its number, and its payload in front of the trailer. -/
theorem ofDatagram_sequenced {kind : UInt8} (sequenced : kind = 0x09 ∨ kind = 0x0d)
    (seq : UInt16) (payload : Bytes) (sessionKey : UInt32)
    : ofDatagram (sequencedDatagram kind seq payload sessionKey)
      = { packet := sequencedDatagram kind seq payload sessionKey
          length := UInt32.ofNat (payload.length + 7)
          netOp := UInt16.ofNat (kind.toNat * 256)
          flags := 0
          payload := payload ++ trailer (sequencedHeader kind seq ++ payload) sessionKey
          bAllocedPayload := false
          bDecoded := true
          payloadLength := UInt32.ofNat (payload.length + 7) - 2 - 1 - 2 - 2
          rawPayload :=
            networkBytes16 seq ++ payload
              ++ trailer (sequencedHeader kind seq ++ payload) sessionKey
          rawPayloadLength := UInt32.ofNat (payload.length + 7) - 2 - 1 - 2
          arqSeq := seq
          subpacket := false } := by
  have length := sequencedDatagram_length kind seq payload sessionKey
  have body
      : sequencedDatagram kind seq payload sessionKey
        = 0x00 :: kind :: 0x00 :: (networkBytes16 seq ++ payload
            ++ trailer (sequencedHeader kind seq ++ payload) sessionKey) := by
    simp [sequencedDatagram, sequencedHeader]
  have number (tail : Bytes) : eqntohuint16 (networkBytes16 seq ++ (payload ++ tail)) = seq :=
    eqntohuint16_networkBytes16 seq _
  generalize sequencedDatagram kind seq payload sessionKey = datagram at length body ⊢
  have opcode : eqtohuint16 datagram = UInt16.ofNat (kind.toNat * 256) := by
    rw [body]
    simp [eqtohuint16]
  have framed : isFramedOpCode (UInt16.ofNat (kind.toNat * 256)) = true
      ∧ IS_APP_OPCODE (UInt16.ofNat (kind.toNat * 256)) = false
      ∧ (UInt16.ofNat (kind.toNat * 256) = OP_Packet
        ∨ UInt16.ofNat (kind.toNat * 256) = OP_Oversized) := by
    rcases sequenced with rfl | rfl <;> decide
  generalize UInt16.ofNat (kind.toNat * 256) = netOp at opcode framed ⊢
  obtain ⟨checked, net, arq⟩ := framed
  have flag : byteAt datagram 2 = 0 := by rw [body]; rfl
  have rest : datagram.drop 3 = networkBytes16 seq ++ (payload
      ++ trailer (sequencedHeader kind seq ++ payload) sessionKey) := by
    rw [body]
    simp
  simp [ofDatagram, init, hasFlags, hasCRC, hasArqSeq, opcode, length, checked, net, flag, rest,
    takeArqSeq, arq, number, PROTOCOL_FLAG_COMPRESSED, List.drop_append]

/-- The checksum of a sealed datagram covers what stands in front of its trailer. -/
theorem sequencedDatagram_sealed (kind : UInt8) (seq : UInt16) (payload : Bytes)
    (sessionKey : UInt32) (fits : payload.length + 7 < 65536)
    : calcCRC16 (sequencedDatagram kind seq payload sessionKey)
          ((UInt32.ofNat (payload.length + 7)).toUInt16 - 2).toUInt32 sessionKey
        = eqntohuint16
          ((sequencedDatagram kind seq payload sessionKey).drop
            (UInt32.ofNat (payload.length + 7) - 2).toNat) := by
  have covered : (sequencedHeader kind seq ++ payload).length = payload.length + 5 := by
    simp
    omega
  have start : (UInt32.ofNat (payload.length + 7) - 2).toNat = payload.length + 5 := by
    simp only [UInt32.toNat_sub, UInt32.toNat_ofNat', UInt32.toNat_ofNat]
    omega
  have length : ((UInt32.ofNat (payload.length + 7)).toUInt16 - 2).toUInt32
      = UInt32.ofNat (payload.length + 5) := by
    apply UInt32.toNat_inj.mp
    simp only [UInt16.toNat_toUInt32, UInt16.toNat_sub, UInt32.toNat_toUInt16,
      UInt32.toNat_ofNat', UInt16.toNat_ofNat]
    omega
  have fitting : (UInt32.ofNat (payload.length + 5)).toNat = payload.length + 5 := by
    rw [UInt32.toNat_ofNat']
    omega
  rw [start, length, sequencedDatagram, List.drop_left' covered, eqntohuint16_trailer, covered,
    calcCRC16_append _ _ _ (fitting.trans covered.symm)]

/-- A sequenced packet carries the payload it was sealed with, inside its own bytes, and
passes the checksum test under the key it was sealed with.
-/
theorem sequenced_roundtrip {kind : UInt8} (sequenced : kind = 0x09 ∨ kind = 0x0d)
    (seq : UInt16) (payload : Bytes) (sessionKey : UInt32) (fits : payload.length + 7 < 65536)
    : (ofDatagram (sequencedDatagram kind seq payload sessionKey)).payloadBytes = payload
      ∧ (ofDatagram (sequencedDatagram kind seq payload sessionKey)).Intact
      ∧ (ofDatagram (sequencedDatagram kind seq payload sessionKey)).passesCRC sessionKey := by
  have long : (UInt32.ofNat (payload.length + 7)).toNat = payload.length + 7 := by
    rw [UInt32.toNat_ofNat']
    omega
  have inner : (UInt32.ofNat (payload.length + 7) - 2 - 1 - 2 - 2).toNat = payload.length := by
    simp only [UInt32.toNat_sub, long, UInt32.toNat_ofNat]
    omega
  rw [ofDatagram_sequenced sequenced]
  refine ⟨?_, ⟨5, ?_, ?_, ?_⟩, ?_⟩
  · simp only [payloadBytes, inner]
    exact readBytes_append payload _
  · simp only [Bool.false_eq_true, if_false, inner, long]
    omega
  · simp [sequencedDatagram_length]
  · simp [sequencedDatagram, sequencedHeader, List.drop_append]
  · have sealed := sequencedDatagram_sealed kind seq payload sessionKey fits
    have long16 : ¬ (UInt32.ofNat (payload.length + 7)).toUInt16 < 2 := by
      rw [UInt16.lt_iff_toNat_lt, UInt32.toNat_toUInt16, long]
      simp
      omega
    have long32 : UInt32.ofNat (payload.length + 7) ≥ 2 := by
      rw [ge_iff_le, UInt32.le_iff_toNat_le, long]
      simp
    simp only [passesCRC, calculateCRC, crc, rawPacketLength, long16, long32, if_true, if_false,
      sealed, beq_self_eq_true, Bool.or_true]

end EQProtocolPacket

end Scry
