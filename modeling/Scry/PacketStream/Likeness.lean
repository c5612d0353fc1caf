import Mathlib.Data.List.Forall2
import Scry.PacketStream.RoundTrips
import Scry.PacketStream.WholeRecords

/-! Streams that differ only in the storage behind their fragments.
The buffer of a stream outlives the messages it was made for, so two streams that are otherwise
the same may read different bytes behind a message. Carriers that hold whole records hand on the
same content from either buffer.
-/

namespace Scry

-----------------------------------------------------------------------------------------
-- Packets and items
-----------------------------------------------------------------------------------------

/-- An inner packet in either of two buffers: its own bytes are the same, whatever follows. -/
structure EQProtocolPacket.SameContent (p q : EQProtocolPacket) : Prop where
  inner : p.subpacket = true
  netOp : q.netOp = p.netOp
  arqSeq : q.arqSeq = p.arqSeq
  payloadLength : q.payloadLength = p.payloadLength
  copied : q.copy = p.copy
  payload : ∃ bytes, PayloadIs p bytes ∧ PayloadIs q bytes

/-- The two streams are given the same packet, or the same content in two buffers. -/
def EQProtocolPacket.Alike (p q : EQProtocolPacket) : Prop := q = p ∨ p.SameContent q

/-- A carrier hands on the same message or alike packets. -/
inductive Item.Alike : Item → Item → Prop
  | message {call call' : DispatchCall}
    (same : EQPacketStream.dispatched call' = EQPacketStream.dispatched call)
    : Alike (.message call) (.message call')
  | subpacket {p q : EQProtocolPacket} (alike : p.Alike q) : Alike (.subpacket p) (.subpacket q)

namespace EQProtocolPacket

variable {p q : EQProtocolPacket}

theorem Alike.netOp (alike : p.Alike q) : q.netOp = p.netOp := by
  rcases alike with rfl | same
  · rfl
  · exact same.netOp

theorem Alike.arqSeq (alike : p.Alike q) : q.arqSeq = p.arqSeq := by
  rcases alike with rfl | same
  · rfl
  · exact same.arqSeq

theorem Alike.payloadLength (alike : p.Alike q) : q.payloadLength = p.payloadLength := by
  rcases alike with rfl | same
  · rfl
  · exact same.payloadLength

theorem Alike.copied (alike : p.Alike q) : q.copy = p.copy := by
  rcases alike with rfl | same
  · rfl
  · exact same.copied

theorem Alike.payloadBytes (alike : p.Alike q) : q.payloadBytes = p.payloadBytes := by
  rcases alike with rfl | same
  · rfl
  · obtain ⟨bytes, first, second⟩ := same.payload
    rw [first.payloadBytes, second.payloadBytes]

/-- The checksum of a packet is that of its copy. -/
theorem Alike.passesCRC (alike : p.Alike q) (key : UInt32)
    : q.passesCRC key = p.passesCRC key := by
  rw [← copy_passesCRC, alike.copied, copy_passesCRC]

/-- A read inside the payload. -/
theorem Alike.byteAt (alike : p.Alike q) {i : Nat} (inside : i < p.payloadLength.toNat)
    : byteAt q.payload i = byteAt p.payload i := by
  have same := congrArg (fun bytes => Scry.byteAt bytes i) alike.payloadBytes
  simp only [EQProtocolPacket.payloadBytes, alike.payloadLength] at same
  rwa [byteAt_readBytes _ inside, byteAt_readBytes _ inside] at same

theorem Alike.eqntohuint32 (alike : p.Alike q) {i : Nat} (inside : i + 4 ≤ p.payloadLength.toNat)
    : eqntohuint32 (q.payload.drop i) = eqntohuint32 (p.payload.drop i) := by
  have shift (data : Bytes) (j : Nat) : Scry.byteAt (data.drop i) j = Scry.byteAt data (i + j) := by
    simp [Scry.byteAt, List.getElem?_drop]
  have byte (j : Nat) (four : j < 4) := alike.byteAt (i := i + j) (by omega)
  simp only [Scry.eqntohuint32, shift, byte 0 (by omega), byte 1 (by omega), byte 2 (by omega),
    byte 3 (by omega)]

end EQProtocolPacket

theorem Item.Alike.refl (item : Item) : item.Alike item := by
  cases item with
  | message call => exact .message rfl
  | subpacket packet => exact .subpacket (.inl rfl)

theorem Item.Alike.refls (items : List Item) : List.Forall₂ Item.Alike items items :=
  List.forall₂_same.mpr fun item _ => .refl item

-----------------------------------------------------------------------------------------
-- Inner packets
-----------------------------------------------------------------------------------------

theorem eqtohuint16_append {bytes : Bytes} (two : 2 ≤ bytes.length) (rest : Bytes)
    : eqtohuint16 (bytes ++ rest) = eqtohuint16 bytes := by
  match bytes with
  | [] | [_] => simp at two
  | _ :: _ :: _ => rfl

theorem eqntohuint16_append {bytes : Bytes} (two : 2 ≤ bytes.length) (rest : Bytes)
    : eqntohuint16 (bytes ++ rest) = eqntohuint16 bytes := by
  match bytes with
  | [] | [_] => simp at two
  | _ :: _ :: _ => rfl

theorem minLength_append {bytes rest : Bytes} (two : 2 ≤ bytes.length)
    : minLength (bytes ++ rest) = minLength bytes :=
  minLength_congr (eqtohuint16_append two rest)

/-- An inner packet has no flags and no checksum, so its header is the opcode and the number of
a sequenced packet.
-/
theorem ofSubpacket_eq (packet : Bytes) (length : UInt32)
    : EQProtocolPacket.ofSubpacket packet length
      = { packet, length
          netOp := eqtohuint16 packet
          flags := 0
          payload := packet.drop (2 + arqSeqLength (eqtohuint16 packet))
          bAllocedPayload := false
          bDecoded := true
          payloadLength := length - 2 - UInt32.ofNat (arqSeqLength (eqtohuint16 packet))
          rawPayload := packet.drop 2
          rawPayloadLength := length - 2
          arqSeq :=
            if arqSeqLength (eqtohuint16 packet) = 0 then 0 else eqntohuint16 (packet.drop 2)
          subpacket := true } := by
  cases seq : (eqtohuint16 packet == OP_Packet || eqtohuint16 packet == OP_Oversized)
  all_goals
    simp [EQProtocolPacket.ofSubpacket, EQProtocolPacket.init, EQProtocolPacket.hasFlags,
      EQProtocolPacket.hasCRC, EQProtocolPacket.hasArqSeq, EQProtocolPacket.takeArqSeq,
      arqSeqLength, seq]

theorem arqSeqLength_le (netOp : UInt16) : arqSeqLength netOp ≤ 2 := by
  unfold arqSeqLength
  split <;> omega

/-- The header lies within the bytes of the packet. -/
theorem header_le_minLength {bytes : Bytes}
    : 2 + arqSeqLength (eqtohuint16 bytes) ≤ minLength bytes := by
  unfold minLength
  split
  · rename_i zero
    rw [zero]
    decide
  · exact Nat.le_refl _

/-- The content of an inner packet does not depend on what follows it in the buffer. -/
theorem sameContent_ofSubpacket {bytes : Bytes} {length : UInt32} (rest rest' : Bytes)
    (size : length.toNat = bytes.length) (enough : minLength bytes ≤ bytes.length)
    : (EQProtocolPacket.ofSubpacket (bytes ++ rest) length).SameContent
        (.ofSubpacket (bytes ++ rest') length) := by
  have header : 2 + arqSeqLength (eqtohuint16 bytes) ≤ bytes.length :=
    header_le_minLength.trans enough
  have opcode := eqtohuint16_append (show 2 ≤ bytes.length by omega)
  have short := arqSeqLength_le (eqtohuint16 bytes)
  have payload (rest : Bytes)
      : PayloadIs (.ofSubpacket (bytes ++ rest) length)
          (bytes.drop (2 + arqSeqLength (eqtohuint16 bytes))) := by
    have bound := length.toNat_lt
    constructor
    · rw [ofSubpacket_eq, opcode, List.length_drop, UInt32.toNat_sub, UInt32.toNat_sub,
        UInt32.toNat_ofNat']
      simp only [UInt32.reduceToNat]
      omega
    · exact ⟨rest, by rw [ofSubpacket_eq, opcode, List.drop_append_of_le_length header]⟩
  have number (rest : Bytes)
      : (if arqSeqLength (eqtohuint16 bytes) = 0 then 0
          else eqntohuint16 ((bytes ++ rest).drop 2))
        = if arqSeqLength (eqtohuint16 bytes) = 0 then 0 else eqntohuint16 (bytes.drop 2) := by
    split
    · rfl
    · rename_i sequenced
      have two : 2 ≤ (bytes.drop 2).length := by
        rw [List.length_drop]
        have : arqSeqLength (eqtohuint16 bytes) = 2 := by
          unfold arqSeqLength at sequenced ⊢
          split <;> simp_all
        omega
      rw [List.drop_append_of_le_length (by omega), eqntohuint16_append two]
  have start (rest : Bytes) {n : Nat} (inside : n ≤ bytes.length)
      : (bytes ++ rest).length - ((bytes ++ rest).drop n).length = n := by
    rw [List.length_drop, List.length_append]
    omega
  refine ⟨?_, ?_, ?_, ?_, ?_, _, payload rest, payload rest'⟩
  · rw [ofSubpacket_eq]
  · simp only [ofSubpacket_eq, opcode]
  · simp only [ofSubpacket_eq, opcode, number]
  · simp only [ofSubpacket_eq, opcode]
  · simp only [ofSubpacket_eq, opcode, EQProtocolPacket.copy, number, Bool.false_eq_true, if_false,
      size, readBytes_append, start _ header, start _ (show 2 ≤ bytes.length by omega)]

-----------------------------------------------------------------------------------------
-- What carriers hand on
-----------------------------------------------------------------------------------------

/-- A message whose body lies in front of whatever follows in the buffer. -/
theorem Item.alike_message {opcode : UInt16} {body : Bytes} {len : Nat} (rest rest' : Bytes)
    (size : len = body.length)
    : (Item.message ⟨opcode, body ++ rest, len⟩).Alike (.message ⟨opcode, body ++ rest', len⟩) := by
  refine .message ?_
  simp only [EQPacketStream.dispatched, DispatchCall.body, size, readBytes_append]

/-- A message that begins inside some bytes, in front of whatever follows them. -/
theorem Item.alike_drop {bytes : Bytes} {n len : Nat} (opcode : UInt16) (rest rest' : Bytes)
    (inside : n ≤ bytes.length) (size : len = bytes.length - n)
    : (Item.message ⟨opcode, (bytes ++ rest).drop n, len⟩).Alike
        (.message ⟨opcode, (bytes ++ rest').drop n, len⟩) := by
  rw [List.drop_append_of_le_length inside, List.drop_append_of_le_length inside]
  exact alike_message rest rest' (by rw [size, List.length_drop])

/-- An escaped opcode behind one byte, in front of whatever follows. -/
theorem eqtohuint16_drop_append {bytes : Bytes} (three : 3 ≤ bytes.length) (rest : Bytes)
    : eqtohuint16 ((bytes ++ rest).drop 1) = eqtohuint16 (bytes.drop 1) := by
  rw [List.drop_append_of_le_length (by omega),
    eqtohuint16_append (by rw [List.length_drop]; omega)]

/-- The opcode of a content, and what is left behind it: one byte is skipped when it is escaped.
-/
theorem unwrap_alike {bytes : Bytes} {length : UInt32} {remaining : Nat → Nat} (rest rest' : Bytes)
    (size : length.toNat = bytes.length) (enough : minLength bytes ≤ bytes.length)
    (left : ∀ n ≤ bytes.length, n ≤ 3 → remaining n = bytes.length - n)
    : (unwrap (bytes ++ rest) length remaining).Alike (unwrap (bytes ++ rest') length remaining) := by
  have two := (two_le_minLength bytes).trans enough
  simp only [unwrap, eqtohuint16_append two]
  split
  · rename_i escaped
    have three : 3 ≤ bytes.length := by simpa [minLength, escaped] using enough
    rw [eqtohuint16_drop_append three, eqtohuint16_drop_append three]
    exact Item.alike_drop _ rest rest' three (left 3 three (by omega))
  · split
    · exact .subpacket (.inr (sameContent_ofSubpacket rest rest' size enough))
    · exact Item.alike_drop _ rest rest' two (left 2 two (by omega))

/-- A whole record is taken from either buffer. -/
def TakenWhole (record : Bytes → Item × Nat) (piece : Bytes) : Prop :=
  ∀ rest rest',
    (record (piece ++ rest)).1.Alike (record (piece ++ rest')).1
      ∧ (record (piece ++ rest)).2 = piece.length

theorem combinedRecord_takenWhole {piece : Bytes} (whole : CombinedPiece piece)
    : TakenWhole combinedRecord piece := by
  intro rest rest'
  obtain ⟨length, content, rfl, size, enough⟩ := whole
  have two := two_le_minLength content
  have opcode := eqtohuint16_append (show 2 ≤ content.length by omega)
  have small := length.toNat_lt
  simp only [combinedRecord, List.cons_append, byteAt_cons_zero, List.drop_succ_cons,
    List.drop_zero, opcode]
  split
  · rename_i escaped
    have three : 3 ≤ length.toNat := by simpa [minLength, escaped] using enough
    rw [if_pos escaped] at size
    rw [eqtohuint16_drop_append (by omega), eqtohuint16_drop_append (by omega)]
    refine ⟨Item.alike_drop _ rest rest' (by omega) ?_, ?_⟩
    · rw [show ((length.toNat : Int) - 2) = (length.toNat : Int) - (2 : Nat) by rfl,
        toSizeT_sub (by omega) (by omega)]
      omega
    · simp only [List.length_cons]
      omega
  · rename_i plain
    rw [if_neg plain] at size
    split
    · refine ⟨.subpacket (.inr (sameContent_ofSubpacket rest rest' ?_ ?_)), ?_⟩
      · simpa using size.symm
      · omega
      · simp only [List.length_cons]
        omega
    · refine ⟨Item.alike_drop _ rest rest' (by omega) ?_, ?_⟩
      · rw [show ((length.toNat : Int) - 2) = (length.toNat : Int) - (2 : Nat) by rfl,
          toSizeT_sub (by omega) (by omega)]
        omega
      · simp only [List.length_cons]
        omega

/-- Behind `start` bytes of length, a record of an `OP_AppCombined` is split by its opcode. -/
theorem takenWhole_of_split {record : Bytes → Item × Nat} {piece content : Bytes} (start : Nat)
    {n shorter : Nat} (size : piece.length = start + content.length)
    (length : n = content.length) (less : shorter = n - 1) (small : n < 65536)
    (enough : opcodeLength content ≤ content.length)
    (split
      : ∀ rest,
          record (piece ++ rest)
            = if eqtohuint16 (content ++ rest) = 0 then
                (.message
                  ⟨eqtohuint16 ((content ++ rest).drop 1), (content ++ rest).drop 3,
                    toSizeT (shorter - 2)⟩,
                  start + 1 + shorter)
              else
                (.message
                  ⟨eqtohuint16 (content ++ rest), (content ++ rest).drop 2, toSizeT (n - 2)⟩,
                  start + n))
    : TakenWhole record piece := by
  intro rest rest'
  have two := (two_le_opcodeLength content).trans enough
  simp only [split, eqtohuint16_append two]
  split_ifs with escaped
  · have three : 3 ≤ content.length := by simpa [opcodeLength, escaped] using enough
    rw [eqtohuint16_drop_append three, eqtohuint16_drop_append three]
    refine ⟨Item.alike_drop _ rest rest' three ?_, by omega⟩
    unfold toSizeT
    omega
  · refine ⟨Item.alike_drop _ rest rest' two ?_, by omega⟩
    unfold toSizeT
    omega

theorem appCombinedRecord_takenWhole {piece : Bytes} (whole : AppCombinedPiece piece)
    : TakenWhole appCombinedRecord piece := by
  obtain ⟨content, enough, ⟨small, rfl⟩ | ⟨small, rfl⟩⟩ := whole
  · have two := two_le_opcodeLength content
    have length : (UInt8.ofNat content.length).toNat = content.length := by
      rw [UInt8.toNat_ofNat']
      omega
    have short : UInt8.ofNat content.length ≠ 0xff := by
      intro marker
      rw [marker] at length
      simp at length
      omega
    have less : (UInt8.ofNat content.length - 1).toNat = content.length - 1 := by
      rw [UInt8.toNat_sub, length]
      simp
      omega
    refine takenWhole_of_split 1 (by simp; omega) length (less.trans (by rw [length]))
      (by omega) enough ?_
    intro rest
    simp only [appCombinedRecord, List.cons_append, byteAt_cons_zero, short, ne_eq,
      not_false_eq_true, if_true, List.drop_succ_cons, List.drop_zero]
  · have two := two_le_opcodeLength content
    have length : (UInt16.ofNat content.length).toNat = content.length := by
      rw [UInt16.toNat_ofNat']
      omega
    have less : (UInt16.ofNat content.length - 1).toNat = content.length - 1 := by
      rw [UInt16.toNat_sub, length]
      simp
      omega
    refine takenWhole_of_split 3 (by simp [networkBytes16]; omega) length
      (less.trans (by rw [length])) (by omega) enough ?_
    intro rest
    have body : (0xff :: (networkBytes16 (UInt16.ofNat content.length) ++ content) ++ rest).drop 3
        = content ++ rest := rfl
    simp only [appCombinedRecord, List.cons_append, byteAt_cons_zero, ne_eq, not_true_eq_false,
      if_false, List.drop_succ_cons, List.drop_zero, List.append_assoc,
      eqntohuint16_networkBytes16] at body ⊢
    simp only [body]

/-- Whole records are unrolled to the same items from either buffer, by induction on them. -/
theorem unrollRecords_alike {record : Bytes → Item × Nat} {pieces : List Bytes}
    (moves : ∀ data, 0 < (record data).2) (whole : ∀ piece ∈ pieces, TakenWhole record piece)
    (rest rest' : Bytes)
    : List.Forall₂ Item.Alike
        (unrollRecords record pieces.flatten.length pieces.flatten.length (pieces.flatten ++ rest))
        (unrollRecords record pieces.flatten.length pieces.flatten.length
          (pieces.flatten ++ rest')) := by
  induction pieces with
  | nil => exact .nil
  | cons piece pieces ih =>
      obtain ⟨first, later⟩ := List.forall_mem_cons.mp whole
      rw [List.flatten_cons, List.length_append, List.append_assoc, List.append_assoc,
        unrollRecords_cons moves (first _ []).2, unrollRecords_cons moves (first _ []).2]
      exact .cons (first _ _).1 (ih later)

namespace EQProtocolPacket

variable {p q : EQProtocolPacket}

/-- Alike carriers of whole records unroll to alike items. -/
theorem Alike.unrollRecords {record : Bytes → Item × Nat} {piece : Bytes → Prop}
    (alike : p.Alike q) (moves : ∀ data, 0 < (record data).2)
    (whole : ∀ bytes, piece bytes → TakenWhole record bytes)
    (cut : p.subpacket = true → CutInto piece p.payloadBytes)
    : List.Forall₂ Item.Alike
        (Scry.unrollRecords record p.payloadLength.toNat p.payloadLength.toNat p.payload)
        (Scry.unrollRecords record q.payloadLength.toNat q.payloadLength.toNat q.payload) := by
  rcases alike with rfl | same
  · exact Item.Alike.refls _
  · obtain ⟨bytes, first, second⟩ := same.payload
    obtain ⟨pieces, all, layout⟩ := cut same.inner
    rw [first.payloadBytes] at layout
    subst layout
    obtain ⟨size, rest, there⟩ := first
    obtain ⟨size', rest', there'⟩ := second
    rw [size, size', there, there']
    exact unrollRecords_alike moves (fun piece member => whole piece (all piece member)) rest rest'

/-- An expected packet hands on the same content when it holds its opcode. -/
theorem Alike.unwrapPacket (alike : p.Alike q)
    (enough : p.subpacket = true → minLength p.payload ≤ p.payloadLength.toNat)
    : (Scry.unwrapPacket p).Alike (Scry.unwrapPacket q) := by
  rcases alike with rfl | same
  · exact .refl _
  · have long := enough same.inner
    obtain ⟨bytes, ⟨size, rest, there⟩, _, rest', there'⟩ := same.payload
    have two := (two_le_minLength p.payload).trans long
    rw [there, size, minLength_append (by omega)] at long
    unfold Scry.unwrapPacket
    rw [there, there', same.payloadLength]
    exact unwrap_alike rest rest' size long fun n within small =>
      payloadLength_sub size within small

end EQProtocolPacket

-----------------------------------------------------------------------------------------
-- Fragment buffers
-----------------------------------------------------------------------------------------

namespace EQPacketFragmentSequence

/-- Two buffers hold nothing, or the same part of the same message, with room for all of it. -/
def Alike (f g : EQPacketFragmentSequence) : Prop :=
  (f.dataSize = 0 ∧ g.dataSize = 0)
    ∨ ∃ total bytes,
        bytes ≠ [] ∧ bytes.length ≤ total ∧ f.Buffers total bytes ∧ g.Buffers total bytes

/-- A fragment keeps to the message it belongs to: a first one has data behind its length bytes
and no more than it declares, a further one ends with the declared total.
-/
def Fits (f : EQPacketFragmentSequence) (packet : EQProtocolPacket) : Prop :=
  (f.dataSize = 0 →
      4 < packet.payloadLength.toNat
        ∧ (Opens packet → packet.payloadLength.toNat - 4 ≤ (declaredTotal packet).toNat))
    ∧ (f.dataSize ≠ 0 → f.dataSize + packet.payloadLength.toNat ≤ f.totalLength.toNat)

instance (f : EQPacketFragmentSequence) (packet : EQProtocolPacket)
    : Decidable (f.Fits packet) :=
  inferInstanceAs (Decidable (_ ∧ _))

variable {f g : EQPacketFragmentSequence} {p q : EQProtocolPacket}

theorem Alike.dataSize (alike : f.Alike g) : g.dataSize = f.dataSize := by
  rcases alike with ⟨left, right⟩ | ⟨_, _, _, _, first, second⟩
  · rw [left, right]
  · rw [first.filled, second.filled]

/-- Buffers that hold the same part of the same message are complete together. -/
theorem Alike.isComplete (alike : f.Alike g) : g.isComplete = f.isComplete := by
  rcases alike with ⟨left, right⟩ | ⟨_, _, _, _, first, second⟩
  · simp [EQPacketFragmentSequence.isComplete, left, right]
  · rw [Bool.eq_iff_iff, first.isComplete_iff, second.isComplete_iff]

theorem Alike.readBytes (alike : f.Alike g)
    : Scry.readBytes g.data g.dataSize = Scry.readBytes f.data f.dataSize := by
  rcases alike with ⟨left, right⟩ | ⟨_, _, _, _, first, second⟩
  · simp [Scry.readBytes, left, right]
  · rw [first.readBytes, second.readBytes]

theorem alike_reset (f g : EQPacketFragmentSequence) : f.reset.Alike g.reset :=
  .inl ⟨rfl, rfl⟩

theorem declaredTotal_alike (alike : p.Alike q) (long : 4 ≤ p.payloadLength.toNat)
    : declaredTotal q = declaredTotal p := by
  simpa [declaredTotal] using alike.eqntohuint32 (i := 0) (by omega)

/-- A fragment fits a buffer when it fits one like it. -/
theorem Alike.fits (alike : f.Alike g) (packets : p.Alike q) (fits : f.Fits p) : g.Fits q := by
  have same := alike.dataSize
  refine ⟨fun empty => ?_, fun started => ?_⟩
  · obtain ⟨long, within⟩ := fits.1 (same.symm.trans empty)
    have total := declaredTotal_alike packets (by omega)
    rw [packets.payloadLength]
    refine ⟨long, fun opens => ?_⟩
    rw [Opens, total] at opens
    rw [total]
    exact within opens
  · have within := fits.2 (same ▸ started)
    rw [packets.payloadLength, same]
    rcases alike with ⟨empty, _⟩ | ⟨_, _, _, _, first, second⟩
    · exact absurd (same.trans empty) started
    · rwa [second.declared, ← first.declared]

/-- The data behind the length bytes of a first fragment. -/
theorem firstData_alike (alike : p.Alike q) (long : 4 ≤ p.payloadLength.toNat)
    : readBytes (q.payload.drop 4) (q.payloadLength - 4).toNat
      = readBytes (p.payload.drop 4) (p.payloadLength - 4).toNat := by
  have whole : p.payloadLength.toNat = 4 + (p.payloadLength - 4).toNat := by
    rw [firstLength long]
    omega
  have same := alike.payloadBytes
  simp only [EQProtocolPacket.payloadBytes, alike.payloadLength] at same ⊢
  rw [whole, readBytes_add, readBytes_add] at same
  exact (List.append_inj same (by simp)).2

/-- A fragment that fits is taken alike: the buffers stay alike and the copies are the same. -/
theorem Alike.addFragment (alike : f.Alike g) (packets : p.Alike q) (fits : f.Fits p)
    : (f.addFragment p).1.Alike (g.addFragment q).1
      ∧ (g.addFragment q).2 = (f.addFragment p).2 := by
  have like := alike.fits packets fits
  have same := alike.dataSize
  rcases f.addFragment_cases p with
    ⟨empty, closed, result⟩ | ⟨empty, opens, result⟩ | ⟨started, overrun, _⟩ | ⟨started, room, result⟩
  · have total := declaredTotal_alike packets (by have := fits.1 empty; omega)
    have closed' : ¬ Opens q := by rwa [Opens, total]
    rcases g.addFragment_cases q with
      ⟨_, _, result'⟩ | ⟨_, opens', _⟩ | ⟨started', _⟩ | ⟨started', _⟩
    · rw [result, result']
      exact ⟨alike_reset f g, rfl⟩
    · exact absurd opens' closed'
    · exact absurd (same.trans empty) started'
    · exact absurd (same.trans empty) started'
  · obtain ⟨long, within⟩ := fits.1 empty
    have total := declaredTotal_alike packets (by omega)
    have data := firstData_alike packets (by omega)
    have opens' : Opens q := by rwa [Opens, total]
    have size : (p.payloadLength - 4).toNat = p.payloadLength.toNat - 4 :=
      firstLength (by omega)
    refine ⟨.inr ⟨_, _, ?_, ?_, buffers_addFirst empty opens, ?_⟩, ?_⟩
    · intro none
      have length := congrArg List.length none
      rw [readBytes_length] at length
      simp only [List.length_nil] at length
      omega
    · rw [readBytes_length, size]
      exact within opens
    · rw [← data, ← total]
      exact buffers_addFirst (same.trans empty) opens'
    · rcases g.addFragment_cases q with
        ⟨_, closed', _⟩ | ⟨_, _, result'⟩ | ⟨started', _⟩ | ⟨started', _⟩
      · exact absurd opens' closed'
      · rw [result, result', packets.payloadLength]
      · exact absurd (same.trans empty) started'
      · exact absurd (same.trans empty) started'
  · rcases alike with ⟨empty, _⟩ | ⟨total, bytes, _, _, first, _⟩
    · exact absurd empty started
    · have within := fits.2 started
      have declared := first.declared
      have fitting := first.room
      omega
  · rcases alike with ⟨empty, _⟩ | ⟨total, bytes, nonempty, _, first, second⟩
    · exact absurd empty started
    · have started' : g.dataSize ≠ 0 := same ▸ started
      have within := like.2 started'
      have declared := second.declared
      have fitting := second.room
      have room' : g.dataSize + q.payloadLength.toNat ≤ g.dataAllocSize.toNat := by omega
      refine ⟨.inr ⟨total, bytes ++ p.payloadBytes, by simp [nonempty], ?_,
        first.addNext started room, ?_⟩, ?_⟩
      · have length : p.payloadBytes.length = p.payloadLength.toNat := readBytes_length _ _
        rw [List.length_append, length, ← second.filled, ← packets.payloadLength]
        omega
      · rw [← packets.payloadBytes]
        exact second.addNext started' room'
      · rcases g.addFragment_cases q with
          ⟨empty, _⟩ | ⟨empty, _⟩ | ⟨_, overrun, _⟩ | ⟨_, _, result'⟩
        · exact absurd empty started'
        · exact absurd empty started'
        · omega
        · rw [result, result', same, packets.payloadLength]

/-- The content of a complete message is handed on alike, when it holds its opcode. -/
theorem Alike.unwrapFragment (alike : f.Alike g) (complete : f.isComplete = true)
    (enough : minLength f.data ≤ f.dataSize)
    : (Scry.unwrapFragment f.data f.dataSize).Alike (Scry.unwrapFragment g.data g.dataSize) := by
  rcases alike with ⟨empty, _⟩ | ⟨total, bytes, _, _, first, second⟩
  · simp [EQPacketFragmentSequence.isComplete, empty] at complete
  · have small := EQPacketStream.isComplete_small complete
    have two := (two_le_minLength f.data).trans enough
    obtain ⟨rest, there⟩ := first.content
    obtain ⟨rest', there'⟩ := second.content
    rw [second.filled]
    rw [first.filled] at small two enough ⊢
    rw [there, minLength_append two] at enough
    rw [there, there', Scry.unwrapFragment, Scry.unwrapFragment]
    refine unwrap_alike rest rest' ?_ enough fun n within _ => ?_
    · rw [UInt32.toNat_ofNat']
      omega
    · exact toSizeT_sub within (by omega)

end EQPacketFragmentSequence

end Scry
