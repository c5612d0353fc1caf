import Scry.PacketStream.Stream

/-! Where the payload of an accepted packet lies.
`init` and `decode` take opcode, flags, checksum and sequence number off an unsigned length
and look at none of them first, so that a datagram, or what it inflates to, has to be long
enough by itself. A matching checksum says nothing about that.
-/

namespace Scry
namespace EQProtocolPacket

/-- The bytes in front of the payload of a packet that is not compressed, and the checksum
behind it.
-/
def headerLength (p : EQProtocolPacket) : Nat := if p.hasFlags then 3 else 2

def trailerLength (p : EQProtocolPacket) : Nat := if p.hasCRC then 2 else 0

/-- The payload lies between header and checksum of the raw packet, or in the decompressed
buffer, and its length has not wrapped around.
-/
structure PayloadInside (p : EQProtocolPacket) : Prop where
  inside
    : ∃ offset,
        if p.bAllocedPayload then
          p.payload = p.rawPayload.drop offset
          ∧ offset + p.payloadLength.toNat ≤ p.rawPayload.length
        else
          p.headerLength ≤ offset
          ∧ p.payload = p.packet.drop offset
          ∧ offset + p.payloadLength.toNat + p.trailerLength ≤ p.packet.length
  unwrapped
    : p.payloadLength.toNat
        ≤ (if p.bAllocedPayload then p.rawPayloadLength else p.length).toNat

end EQProtocolPacket

/-- The flag byte of a datagram that has one. -/
def wireFlags (datagram : Bytes) : UInt8 :=
  byteAt datagram (if IS_APP_OPCODE (eqtohuint16 datagram) then 1 else 2)

/-- The bytes of the sequence number, for the opcodes that have one. -/
def arqSeqLength (netOp : UInt16) : Nat :=
  if netOp == OP_Packet || netOp == OP_Oversized then 2 else 0

/-- The bytes of a compressed datagram that are inflated; half of an application opcode is
among them.
-/
def deflatedBytes (datagram : Bytes) : Bytes :=
  if IS_APP_OPCODE (eqtohuint16 datagram) then
    readBytes (datagram.drop 2) (UInt32.ofNat datagram.length - 1 - 1 - 2).toNat
  else readBytes (datagram.drop 3) (UInt32.ofNat datagram.length - 2 - 1 - 2).toNat

/-- A datagram is as long as what is taken off its two ends, and what a compressed one
inflates to is as long as what is taken off its front.
-/
def LongEnough (uncompress : Bytes → Nat → Option Bytes) (maxLength : UInt32)
    (datagram : Bytes)
    : Prop :=
  let netOp := eqtohuint16 datagram
  if isFramedOpCode netOp = false then 2 ≤ datagram.length
  else if wireFlags datagram ≠ PROTOCOL_FLAG_COMPRESSED then
    5 + arqSeqLength netOp ≤ datagram.length
  else
    ∀ inflated, uncompress (deflatedBytes datagram) maxLength.toNat = some inflated →
      (if IS_APP_OPCODE netOp then 1 else arqSeqLength netOp) ≤ inflated.length

/-- The inflater fills at most the buffer it is given. -/
def FillsBuffer (uncompress : Bytes → Nat → Option Bytes) : Prop :=
  ∀ deflated size inflated, uncompress deflated size = some inflated → inflated.length ≤ size

namespace EQProtocolPacket

/-- An opcode made of another high byte is an application's if its low byte was one's. -/
theorem isApp_low (high : Nat) {low : Nat} (small : low < 256)
    : IS_APP_OPCODE (UInt16.ofNat (high * 256 + low)) = true ↔ low ≠ 0 := by
  have masked : (UInt16.ofNat (high * 256 + low) &&& 0x00ff).toNat = low := by
    rw [UInt16.toNat_and, UInt16.toNat_ofNat']
    have mod : (high * 256 + low) % 2 ^ 16 % 256 = low := by omega
    exact (Nat.and_two_pow_sub_one_eq_mod _ 8).trans mod
  rw [IS_APP_OPCODE, bne_iff_ne, ne_eq, ← UInt16.toNat_inj, masked]
  rfl

/-- The opcode of a datagram is an application's when its first byte is not zero. -/
theorem isApp_datagram (datagram : Bytes)
    : IS_APP_OPCODE (eqtohuint16 datagram) = true ↔ (byteAt datagram 0).toNat ≠ 0 := by
  have swapped : eqtohuint16 datagram
      = UInt16.ofNat ((byteAt datagram 1).toNat * 256 + (byteAt datagram 0).toNat) := by
    rw [eqtohuint16, Nat.add_comm]
  rw [swapped]
  exact isApp_low _ (UInt8.toNat_lt _)

/-- An application opcode has no sequence number. -/
theorem hasArqSeq_app {netOp : UInt16} (app : IS_APP_OPCODE netOp = true)
    : (netOp == OP_Packet || netOp == OP_Oversized) = false := by
  have packet : IS_APP_OPCODE OP_Packet = false := by decide
  have oversized : IS_APP_OPCODE OP_Oversized = false := by decide
  rw [Bool.or_eq_false_iff, beq_eq_false_iff_ne, beq_eq_false_iff_ne]
  constructor
  · rintro rfl
    exact absurd (app.symm.trans packet) (by simp)
  · rintro rfl
    exact absurd (app.symm.trans oversized) (by simp)

theorem framed_app {netOp : UInt16} (app : IS_APP_OPCODE netOp = true)
    : isFramedOpCode netOp = true := by
  simp [isFramedOpCode, app]

theorem framed_arqSeq {netOp : UInt16} (unframed : isFramedOpCode netOp = false)
    : (netOp == OP_Packet || netOp == OP_Oversized) = false := by
  simp only [isFramedOpCode, Bool.or_eq_false_iff] at unframed
  simp [unframed]

/-- A packet that needs no flags: opcode and payload. -/
theorem ofDatagram_unframed {datagram : Bytes}
    (unframed : isFramedOpCode (eqtohuint16 datagram) = false)
    : ofDatagram datagram
      = { packet := datagram
          length := UInt32.ofNat datagram.length
          netOp := eqtohuint16 datagram
          flags := 0
          payload := datagram.drop 2
          bAllocedPayload := false
          bDecoded := true
          payloadLength := UInt32.ofNat datagram.length - 2
          rawPayload := datagram.drop 2
          rawPayloadLength := UInt32.ofNat datagram.length - 2
          arqSeq := 0
          subpacket := false } := by
  simp [ofDatagram, init, hasFlags, hasCRC, hasArqSeq, unframed, framed_arqSeq unframed]

/-- The opcode of a datagram with flags, which stand inside an application's. -/
def flaggedOp (datagram : Bytes) : UInt16 :=
  if IS_APP_OPCODE (eqtohuint16 datagram) then
    UInt16.ofNat ((byteAt datagram 2).toNat * 256 + (byteAt datagram 0).toNat)
  else eqtohuint16 datagram

theorem flaggedOp_of_app {datagram : Bytes} (app : IS_APP_OPCODE (eqtohuint16 datagram) = true)
    : flaggedOp datagram
      = UInt16.ofNat ((byteAt datagram 2).toNat * 256 + (byteAt datagram 0).toNat) :=
  if_pos app

theorem flaggedOp_app {datagram : Bytes} (app : IS_APP_OPCODE (eqtohuint16 datagram) = true)
    : IS_APP_OPCODE (flaggedOp datagram) = true := by
  rw [flaggedOp_of_app app]
  exact (isApp_low _ (UInt8.toNat_lt _)).mpr ((isApp_datagram datagram).mp app)

theorem flaggedOp_net {datagram : Bytes} (net : IS_APP_OPCODE (eqtohuint16 datagram) = false)
    : flaggedOp datagram = eqtohuint16 datagram := by
  simp [flaggedOp, net]

/-- A datagram with flags, lined up behind them; a compressed one is left for `decode`. -/
def lined (datagram : Bytes) : EQProtocolPacket :=
  { packet := datagram
    length := UInt32.ofNat datagram.length
    netOp := flaggedOp datagram
    flags := wireFlags datagram
    payload := []
    bAllocedPayload := false
    bDecoded := false
    payloadLength := 0
    rawPayload := datagram.drop 3
    rawPayloadLength := UInt32.ofNat datagram.length - 2 - 1 - 2
    arqSeq := 0
    subpacket := false }

theorem lined_hasFlags {datagram : Bytes} (framed : isFramedOpCode (eqtohuint16 datagram) = true)
    : (lined datagram).hasFlags = true ∧ (lined datagram).hasCRC = true := by
  have kind : isFramedOpCode (flaggedOp datagram) = true := by
    cases app : IS_APP_OPCODE (eqtohuint16 datagram) with
    | true => exact framed_app (flaggedOp_app app)
    | false => rwa [flaggedOp_net app]
  exact ⟨kind, kind⟩

/-- The sequence number is taken off by the opcode on the wire. -/
theorem lined_hasArqSeq (datagram : Bytes)
    : (lined datagram).hasArqSeq
      = (eqtohuint16 datagram == OP_Packet || eqtohuint16 datagram == OP_Oversized) := by
  cases app : IS_APP_OPCODE (eqtohuint16 datagram) with
  | true => exact (hasArqSeq_app (flaggedOp_app app)).trans (hasArqSeq_app app).symm
  | false => simp only [hasArqSeq, lined, flaggedOp_net app]

theorem ofDatagram_compressed {datagram : Bytes}
    (framed : isFramedOpCode (eqtohuint16 datagram) = true)
    (compressed : wireFlags datagram = PROTOCOL_FLAG_COMPRESSED)
    : ofDatagram datagram = lined datagram := by
  cases app : IS_APP_OPCODE (eqtohuint16 datagram) with
  | true =>
      have flags : byteAt datagram 1 = PROTOCOL_FLAG_COMPRESSED := by
        simpa [wireFlags, app] using compressed
      have kind := framed_app (flaggedOp_app app)
      have opcode := (flaggedOp_of_app app).symm
      simp only [ofDatagram, init, hasFlags, hasCRC, framed, app, opcode, flags, kind, lined,
        wireFlags, if_true, Bool.false_eq_true, if_false, Bool.not_true, bne_self_eq_false,
        Bool.and_false]
  | false =>
      have flags : byteAt datagram 2 = PROTOCOL_FLAG_COMPRESSED := by
        simpa [wireFlags, app] using compressed
      simp [ofDatagram, init, hasFlags, hasCRC, framed, app, flags, lined, flaggedOp, wireFlags]

/-- A datagram with flags that is not compressed: its payload stands behind the flags. -/
def flat (datagram : Bytes) : EQProtocolPacket :=
  { lined datagram with
    payload := datagram.drop 3
    payloadLength := UInt32.ofNat datagram.length - 2 - 1 - 2
    bDecoded := true }

theorem ofDatagram_flat {datagram : Bytes}
    (framed : isFramedOpCode (eqtohuint16 datagram) = true)
    (plain : wireFlags datagram ≠ PROTOCOL_FLAG_COMPRESSED)
    : ofDatagram datagram
      = if (lined datagram).hasArqSeq then (flat datagram).takeArqSeq else flat datagram := by
  cases app : IS_APP_OPCODE (eqtohuint16 datagram) with
  | true =>
      have flags : byteAt datagram 1 ≠ PROTOCOL_FLAG_COMPRESSED := by
        simpa [wireFlags, app] using plain
      have kind := framed_app (flaggedOp_app app)
      have opcode := (flaggedOp_of_app app).symm
      simp only [ofDatagram, init, hasFlags, hasCRC, hasArqSeq, framed, app, opcode, kind,
        lined, flat, wireFlags, if_true, Bool.false_eq_true, if_false, Bool.not_true,
        bne_iff_ne.mpr flags, Bool.and_true]
  | false =>
      have flags : byteAt datagram 2 ≠ PROTOCOL_FLAG_COMPRESSED := by
        simpa [wireFlags, app] using plain
      simp [ofDatagram, init, hasFlags, hasCRC, hasArqSeq, framed, app, flags, lined, flat,
        flaggedOp, wireFlags]

/-- A compressed datagram behind its inflation; what stands before the payload is half of an
application opcode.
-/
def opened (datagram inflated : Bytes) : EQProtocolPacket :=
  let half := if IS_APP_OPCODE (eqtohuint16 datagram) then 1 else 0
  { lined datagram with
    rawPayload := inflated
    rawPayloadLength := UInt32.ofNat inflated.length
    bAllocedPayload := true
    netOp :=
      if IS_APP_OPCODE (eqtohuint16 datagram) then
        UInt16.ofNat ((byteAt inflated 0).toNat * 256 + (byteAt datagram 0).toNat)
      else eqtohuint16 datagram
    payload := inflated.drop half
    payloadLength := UInt32.ofNat inflated.length - UInt32.ofNat half
    bDecoded := true }

theorem opened_hasArqSeq (datagram inflated : Bytes)
    : (opened datagram inflated).hasArqSeq
      = (eqtohuint16 datagram == OP_Packet || eqtohuint16 datagram == OP_Oversized) := by
  cases app : IS_APP_OPCODE (eqtohuint16 datagram) with
  | true =>
      have low := (isApp_low (byteAt inflated 0).toNat (UInt8.toNat_lt _)).mpr
        ((isApp_datagram datagram).mp app)
      simp only [hasArqSeq, opened, app, if_true]
      exact (hasArqSeq_app low).trans (hasArqSeq_app app).symm
  | false => simp only [hasArqSeq, opened, app, Bool.false_eq_true, if_false]

theorem decode_lined {uncompress : Bytes → Nat → Option Bytes} {maxLength : UInt32}
    {datagram : Bytes} (framed : isFramedOpCode (eqtohuint16 datagram) = true)
    (compressed : wireFlags datagram = PROTOCOL_FLAG_COMPRESSED)
    : (lined datagram).decode uncompress maxLength
      = (uncompress (deflatedBytes datagram) maxLength.toNat).map fun inflated =>
          if (opened datagram inflated).hasArqSeq then (opened datagram inflated).takeArqSeq
          else opened datagram inflated := by
  obtain ⟨flags, crc⟩ := lined_hasFlags framed
  have flag : (lined datagram).flags = PROTOCOL_FLAG_COMPRESSED := compressed
  have packet : (lined datagram).packet = datagram := rfl
  unfold decode
  rw [if_neg (by simp [lined]), if_pos (by simp [flags, flag])]
  cases app : IS_APP_OPCODE (eqtohuint16 datagram) with
  | true =>
      have kind : IS_APP_OPCODE (lined datagram).netOp = true := flaggedOp_app app
      have bytes : deflatedBytes datagram
          = readBytes ((lined datagram).packet.drop 2)
              ((lined datagram).length - 1 - 1 - 2).toNat := by
        simp [deflatedBytes, app, lined]
      simp only [crc, kind, if_true, ← bytes]
      cases uncompress (deflatedBytes datagram) maxLength.toNat with
      | none => rfl
      | some inflated =>
          simp only [Option.map_some, opened, app, if_true, hasArqSeq, packet]
          split <;> rfl
  | false =>
      have kind' : (lined datagram).netOp = eqtohuint16 datagram := flaggedOp_net app
      have kind : IS_APP_OPCODE (lined datagram).netOp = false := by rwa [kind']
      have bytes : deflatedBytes datagram
          = readBytes ((lined datagram).packet.drop 3)
              ((lined datagram).length - 2 - 1 - 2).toNat := by
        simp [deflatedBytes, app, lined]
      simp only [crc, kind, Bool.false_eq_true, if_true, if_false, ← bytes]
      cases uncompress (deflatedBytes datagram) maxLength.toNat with
      | none => rfl
      | some inflated =>
          have whole : UInt32.ofNat inflated.length - UInt32.ofNat 0
              = UInt32.ofNat inflated.length := UInt32.sub_zero _
          simp only [Option.map_some, opened, app, Bool.false_eq_true, if_false, hasArqSeq, kind',
            whole]
          split <;> rfl

/-- A payload in the raw packet is inside exactly when its length did not wrap: `front` bytes
are taken off before it and the checksum behind it.
-/
theorem payloadInside_raw_iff {p : EQProtocolPacket} (front : Nat)
    (raw : p.bAllocedPayload = false) (whole : p.length.toNat = p.packet.length)
    (pointer : p.payload = p.packet.drop front) (header : p.headerLength ≤ front)
    (few : front + p.trailerLength ≤ 9)
    (length
      : p.payloadLength.toNat
        = (p.packet.length + 4294967296 - (front + p.trailerLength)) % 4294967296)
    : p.PayloadInside ↔ front + p.trailerLength ≤ p.packet.length := by
  have bound := p.length.toNat_lt
  constructor
  · intro inside
    have unwrapped := inside.unwrapped
    simp only [raw, Bool.false_eq_true, if_false] at unwrapped
    omega
  · intro long
    refine ⟨⟨front, ?_⟩, ?_⟩
    · simp only [raw, Bool.false_eq_true, if_false]
      exact ⟨header, pointer, by omega⟩
    · simp only [raw, Bool.false_eq_true, if_false]
      omega

/-- A payload in the decompressed buffer is inside exactly when its length did not wrap. -/
theorem payloadInside_inflated_iff {p : EQProtocolPacket} (front : Nat)
    (alloced : p.bAllocedPayload = true)
    (whole : p.rawPayloadLength.toNat = p.rawPayload.length)
    (pointer : p.payload = p.rawPayload.drop front) (few : front ≤ 2)
    (length
      : p.payloadLength.toNat = (p.rawPayload.length + 4294967296 - front) % 4294967296)
    : p.PayloadInside ↔ front ≤ p.rawPayload.length := by
  have bound := p.rawPayloadLength.toNat_lt
  constructor
  · intro inside
    have unwrapped := inside.unwrapped
    simp only [alloced, if_true] at unwrapped
    omega
  · intro long
    refine ⟨⟨front, ?_⟩, ?_⟩
    · simp only [alloced, if_true]
      exact ⟨pointer, by omega⟩
    · simp only [alloced, if_true]
      omega

/-- Subtracting from an unsigned length. -/
theorem toNat_ofNat_sub {n k : Nat} (fits : n < 4294967296) (small : k < 4294967296)
    : (UInt32.ofNat n - UInt32.ofNat k).toNat = (n + 4294967296 - k) % 4294967296 := by
  rw [UInt32.toNat_sub, UInt32.toNat_ofNat', UInt32.toNat_ofNat']
  omega

theorem toNat_ofNat_length {bytes : Bytes} (fits : bytes.length < 4294967296)
    : (UInt32.ofNat bytes.length).toNat = bytes.length := by
  rw [UInt32.toNat_ofNat']
  exact Nat.mod_eq_of_lt fits

theorem payloadInside_unframed_iff {datagram : Bytes} (udp : datagram.length < 65536)
    (unframed : isFramedOpCode (eqtohuint16 datagram) = false)
    : (ofDatagram datagram).PayloadInside ↔ 2 ≤ datagram.length := by
  have header : (ofDatagram datagram).headerLength = 2
      ∧ (ofDatagram datagram).trailerLength = 0 := by
    rw [ofDatagram_unframed unframed]
    simp [headerLength, trailerLength, hasFlags, hasCRC, unframed]
  have inside := payloadInside_raw_iff (p := ofDatagram datagram) 2
  rw [header.1, header.2, ofDatagram_unframed unframed] at inside
  rw [ofDatagram_unframed unframed]
  exact inside rfl (toNat_ofNat_length (by omega)) rfl (Nat.le_refl 2) (by omega)
    (toNat_ofNat_sub (k := 2) (by omega) (by omega))

theorem payloadInside_flat_iff {datagram : Bytes} (udp : datagram.length < 65536)
    (framed : isFramedOpCode (eqtohuint16 datagram) = true)
    (plain : wireFlags datagram ≠ PROTOCOL_FLAG_COMPRESSED)
    : (ofDatagram datagram).PayloadInside
      ↔ 5 + arqSeqLength (eqtohuint16 datagram) ≤ datagram.length := by
  obtain ⟨flags, crc⟩ := lined_hasFlags framed
  have whole : (UInt32.ofNat datagram.length).toNat = datagram.length :=
    toNat_ofNat_length (by omega)
  rw [ofDatagram_flat framed plain]
  split
  · rename_i seq
    have taken : arqSeqLength (eqtohuint16 datagram) = 2 := by
      rw [lined_hasArqSeq] at seq
      simp [arqSeqLength, seq]
    have header : (flat datagram).takeArqSeq.headerLength = 3 := if_pos flags
    have trailer : (flat datagram).takeArqSeq.trailerLength = 2 := if_pos crc
    have inside := payloadInside_raw_iff (p := (flat datagram).takeArqSeq) 5
    rw [header, trailer] at inside
    rw [taken]
    refine inside rfl whole List.drop_drop (by omega) (by omega) ?_
    simp only [takeArqSeq, flat, lined, UInt32.toNat_sub, whole, UInt32.toNat_ofNat]
    omega
  · rename_i unsequenced
    have taken : arqSeqLength (eqtohuint16 datagram) = 0 := by
      rw [lined_hasArqSeq] at unsequenced
      simp [arqSeqLength, Bool.eq_false_of_not_eq_true unsequenced]
    have header : (flat datagram).headerLength = 3 := if_pos flags
    have trailer : (flat datagram).trailerLength = 2 := if_pos crc
    have inside := payloadInside_raw_iff (p := flat datagram) 3
    rw [header, trailer] at inside
    rw [taken]
    refine inside rfl whole rfl (by omega) (by omega) ?_
    simp only [flat, lined, UInt32.toNat_sub, whole, UInt32.toNat_ofNat]
    omega

theorem payloadInside_opened_iff {datagram inflated : Bytes}
    (fits : inflated.length < 4294967296)
    : (if (opened datagram inflated).hasArqSeq then (opened datagram inflated).takeArqSeq
        else opened datagram inflated).PayloadInside
      ↔ (if IS_APP_OPCODE (eqtohuint16 datagram) then 1
          else arqSeqLength (eqtohuint16 datagram)) ≤ inflated.length := by
  have whole := toNat_ofNat_length fits
  have seq := opened_hasArqSeq datagram inflated
  cases app : IS_APP_OPCODE (eqtohuint16 datagram) with
  | true =>
      rw [if_neg (by rw [seq, hasArqSeq_app app]; simp), if_pos rfl]
      refine payloadInside_inflated_iff (p := opened datagram inflated) 1 rfl whole ?_ (by omega) ?_
      · simp [opened, app]
      · simp only [opened, app, if_true]
        exact toNat_ofNat_sub fits (by omega)
  | false =>
      simp only [Bool.false_eq_true, if_false, arqSeqLength, ← seq]
      split
      · refine payloadInside_inflated_iff (p := (opened datagram inflated).takeArqSeq) 2 rfl whole ?_
          (by omega) ?_
        · simp [opened, app, takeArqSeq]
        · simp only [opened, app, takeArqSeq, Bool.false_eq_true, if_false, UInt32.toNat_sub, whole,
            UInt32.toNat_ofNat, UInt32.toNat_ofNat']
          omega
      · refine payloadInside_inflated_iff (p := opened datagram inflated) 0 rfl whole ?_
          (by omega) ?_
        · simp [opened, app]
        · simp only [opened, app, Bool.false_eq_true, if_false]
          exact toNat_ofNat_sub fits (by omega)

end EQProtocolPacket

namespace EQPacketStream

/-- A packet the stream takes is what `init` and `decode` made of the datagram. -/
theorem decode_of_accept {context : StreamContext} {s : EQPacketStream} {header : IPHeader}
    {packet decoded : EQProtocolPacket} (accepted : accept context s header packet = some decoded)
    : packet.decode context.uncompress s.maxLength = some decoded := by
  unfold accept at accepted
  split_ifs at accepted
  exact accepted

/-- The payload of a packet that `handlePacket` passes on is inside its packet or buffer exactly
when the datagram, or what it inflates to, is as long as what is taken off.
-/
theorem payload_inside_iff (context : StreamContext) (fills : FillsBuffer context.uncompress)
    (s : EQPacketStream) (header : IPHeader) {datagram : Bytes} (udp : datagram.length < 65536)
    {packet : EQProtocolPacket}
    (accepted : accept context s header (.ofDatagram datagram) = some packet)
    : packet.PayloadInside ↔ LongEnough context.uncompress s.maxLength datagram := by
  have decoded := decode_of_accept accepted
  have flat {p : EQProtocolPacket} (decoded' : p.bDecoded = true)
      : p.decode context.uncompress s.maxLength = some p := by
    rw [EQProtocolPacket.decode, if_pos decoded']
  unfold LongEnough
  cases framed : isFramedOpCode (eqtohuint16 datagram) with
  | false =>
      have lengths := EQProtocolPacket.payloadInside_unframed_iff udp framed
      rw [flat (by rw [EQProtocolPacket.ofDatagram_unframed framed])] at decoded
      cases decoded
      simpa [framed] using lengths
  | true =>
      by_cases compressed : wireFlags datagram = PROTOCOL_FLAG_COMPRESSED
      · rw [EQProtocolPacket.ofDatagram_compressed framed compressed,
          EQProtocolPacket.decode_lined framed compressed] at decoded
        obtain ⟨inflated, done, rfl⟩ := Option.map_eq_some_iff.mp decoded
        have fits := fills _ _ _ done
        have bound := s.maxLength.toNat_lt
        rw [EQProtocolPacket.payloadInside_opened_iff (by omega)]
        simp [framed, compressed, done]
      · have lengths := EQProtocolPacket.payloadInside_flat_iff udp framed compressed
        have plain : (EQProtocolPacket.ofDatagram datagram).bDecoded = true := by
          rw [EQProtocolPacket.ofDatagram_flat framed compressed]
          split <;> rfl
        rw [flat plain] at decoded
        cases decoded
        simpa [framed, compressed] using lengths

/-- A server's stream of a session with key 7. -/
def keyedStream : EQPacketStream := { boxStream with sessionKey := 7, maxLength := 512 }

/-- The opcode of an `OP_Packet` under a matching checksum, and nothing else. -/
def shortDatagram : Bytes := [0x00, 0x09] ++ trailer [0x00, 0x09] 7

theorem accept_shortDatagram
    : accept alone keyedStream serverHeader (.ofDatagram shortDatagram)
      = some (.ofDatagram shortDatagram) := by
  decide

theorem payload_inside_iff_short
    : (EQProtocolPacket.ofDatagram shortDatagram).PayloadInside
      ↔ LongEnough alone.uncompress keyedStream.maxLength shortDatagram :=
  payload_inside_iff alone (fun _ _ _ none => by cases none) keyedStream serverHeader (by decide)
    accept_shortDatagram

/-- The stream takes the short datagram, whose payload length is three bytes below zero. -/
theorem payload_outside_short
    : accept alone keyedStream serverHeader (.ofDatagram shortDatagram)
        = some (.ofDatagram shortDatagram)
      ∧ (EQProtocolPacket.ofDatagram shortDatagram).payloadLength = 0xfffffffd
      ∧ ¬ (EQProtocolPacket.ofDatagram shortDatagram).PayloadInside := by
  refine ⟨accept_shortDatagram, by decide, fun inside => ?_⟩
  have lengths := (EQProtocolPacket.payloadInside_flat_iff
    (by decide : shortDatagram.length < 65536) (by decide) (by decide)).mp inside
  exact absurd lengths (by decide)

end EQPacketStream
end Scry
