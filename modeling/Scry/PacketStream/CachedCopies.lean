import Scry.PacketStream.PayloadBounds

/-! A packet comes out of the cache as it went in: what a datagram is decoded to records the
lengths of its buffers, and a deep copy of such a packet is the same packet.
-/

namespace Scry
namespace EQProtocolPacket

/-- A packet that records the lengths of its buffers and points into them. -/
structure Exact (p : EQProtocolPacket) : Prop where
  length : p.length.toNat = p.packet.length
  pointers
    : if p.bAllocedPayload then
        p.rawPayloadLength.toNat = p.rawPayload.length
        ∧ p.payload <:+ p.rawPayload
      else p.rawPayload <:+ p.packet ∧ p.payload <:+ p.packet

theorem readBytes_whole {data : Bytes} {n : Nat} (whole : n = data.length)
    : readBytes data n = data := by
  rw [readBytes_of_le (by omega), whole, List.take_length]

/-- A pointer is found again at its offset. -/
theorem drop_of_suffix {data rest : Bytes} (suffix : rest <:+ data)
    : data.drop (data.length - rest.length) = rest :=
  (List.suffix_iff_eq_drop.mp suffix).symm

/-- A deep copy of an exact packet is the same packet. -/
theorem Exact.copy_eq {p : EQProtocolPacket} (exact : p.Exact) : p.copy = p := by
  obtain ⟨length, pointers⟩ := exact
  unfold copy
  cases alloced : p.bAllocedPayload with
  | true =>
      simp only [alloced, if_true] at pointers ⊢
      rw [readBytes_whole length, readBytes_whole pointers.1, drop_of_suffix pointers.2, ← alloced]
  | false =>
      simp only [alloced, Bool.false_eq_true, if_false] at pointers ⊢
      rw [readBytes_whole length, drop_of_suffix pointers.1, drop_of_suffix pointers.2, ← alloced]

/-- What a datagram is decoded to is exact. -/
theorem exact_decode {uncompress : Bytes → Nat → Option Bytes} (fills : FillsBuffer uncompress)
    {maxLength : UInt32} {datagram : Bytes} (udp : datagram.length < 65536)
    {packet : EQProtocolPacket}
    (decoded : (ofDatagram datagram).decode uncompress maxLength = some packet)
    : packet.Exact := by
  have length : (UInt32.ofNat datagram.length).toNat = datagram.length := by
    rw [UInt32.toNat_ofNat']
    omega
  have behind (n : Nat) : datagram.drop n <:+ datagram := List.drop_suffix n datagram
  have whole {p : EQProtocolPacket} (ready : p.bDecoded = true)
      : p.decode uncompress maxLength = some p := by
    rw [decode, if_pos ready]
  cases framed : isFramedOpCode (eqtohuint16 datagram) with
  | false =>
      rw [ofDatagram_unframed framed, whole rfl] at decoded
      cases decoded
      exact ⟨length, behind 2, behind 2⟩
  | true =>
      by_cases compressed : wireFlags datagram = PROTOCOL_FLAG_COMPRESSED
      · rw [ofDatagram_compressed framed compressed, decode_lined framed compressed] at decoded
        obtain ⟨inflated, done, rfl⟩ := Option.map_eq_some_iff.mp decoded
        have fits := fills _ _ _ done
        have bound := maxLength.toNat_lt
        have size : (UInt32.ofNat inflated.length).toNat = inflated.length := by
          rw [UInt32.toNat_ofNat']
          omega
        split
        · exact ⟨length, size, (List.drop_suffix 2 _).trans (List.drop_suffix _ inflated)⟩
        · exact ⟨length, size, List.drop_suffix _ inflated⟩
      · rw [ofDatagram_flat framed compressed] at decoded
        split at decoded
        · rw [whole rfl] at decoded
          cases decoded
          exact ⟨length, behind 3, (List.drop_suffix 2 _).trans (behind 3)⟩
        · rw [whole rfl] at decoded
          cases decoded
          exact ⟨length, behind 3, behind 3⟩

/-- The checksum test reads the raw packet. -/
theorem passesCRC_of_raw {p q : EQProtocolPacket} {key : UInt32} (packet : q.packet = p.packet)
    (length : q.length = p.length) (matched : p.calculateCRC key = p.crc)
    : q.passesCRC key = true := by
  have checksum : q.calculateCRC key = p.calculateCRC key := by
    unfold calculateCRC rawPacketLength
    rw [packet, length]
  have trailer : q.crc = p.crc := by simp only [crc, packet, length]
  simp [passesCRC, checksum, trailer, matched]

/-- Decoding leaves the raw packet alone, and with it the checksum. -/
theorem passesCRC_decode {uncompress : Bytes → Nat → Option Bytes} {maxLength : UInt32}
    {datagram : Bytes} {packet : EQProtocolPacket} {key : UInt32}
    (decoded : (ofDatagram datagram).decode uncompress maxLength = some packet)
    (valid : (ofDatagram datagram).passesCRC key = true)
    : packet.passesCRC key = true := by
  by_cases ready : (ofDatagram datagram).bDecoded = true
  · rw [decode, if_pos ready] at decoded
    cases decoded
    exact valid
  · cases framed : isFramedOpCode (eqtohuint16 datagram) with
    | false =>
        rw [ofDatagram_unframed framed] at ready
        exact absurd rfl ready
    | true =>
        by_cases compressed : wireFlags datagram = PROTOCOL_FLAG_COMPRESSED
        · rw [ofDatagram_compressed framed compressed] at valid decoded
          rw [decode_lined framed compressed] at decoded
          obtain ⟨inflated, done, rfl⟩ := Option.map_eq_some_iff.mp decoded
          have matched : (lined datagram).calculateCRC key = (lined datagram).crc := by
            simpa [passesCRC, (lined_hasFlags framed).2] using valid
          split <;> exact passesCRC_of_raw (p := lined datagram) rfl rfl matched
        · rw [ofDatagram_flat framed compressed] at ready
          refine absurd ?_ ready
          split <;> rfl

end EQProtocolPacket
end Scry
