import Scry.PacketStream.HandedRanges

/-! When the ranges a carrier hands on are inside it.
A combined payload has to be cut into whole records without a rest. The record of an escaped
opcode in an `OP_Combined` needs a byte more than it declares, as the cursor counts the escape
byte and the length does not.
-/

namespace Scry

/-- The bytes a handed packet or message has at least: its opcode, and the sequence number of a
sequenced packet.
-/
def minLength (data : Bytes) : Nat :=
  if eqtohuint16 data = 0 then 3 else 2 + arqSeqLength (eqtohuint16 data)

/-- The bytes of a record of an `OP_Combined`, with the one behind an escaped message. -/
def CombinedPiece (piece : Bytes) : Prop :=
  ∃ (length : UInt8) (content : Bytes),
    piece = length :: content
      ∧ content.length = length.toNat + (if eqtohuint16 content = 0 then 1 else 0)
      ∧ minLength content ≤ length.toNat

/-- The bytes of a record of an `OP_AppCombined`, in the short or in the long form. -/
def AppCombinedPiece (piece : Bytes) : Prop :=
  ∃ content : Bytes,
    opcodeLength content ≤ content.length
      ∧ ((content.length < 255 ∧ piece = UInt8.ofNat content.length :: content)
        ∨ (content.length < 65536
          ∧ piece = 0xff :: (networkBytes16 (UInt16.ofNat content.length) ++ content)))

/-- The bytes are pieces of a kind, one after another. -/
def CutInto (piece : Bytes → Prop) (bytes : Bytes) : Prop :=
  ∃ pieces : List Bytes, (∀ p ∈ pieces, piece p) ∧ bytes = pieces.flatten

namespace EQPacketStream

/-- What a packet unwraps holds whole records, or its opcode, where its branch looks. -/
def HoldsRecords (s : EQPacketStream) (packet : EQProtocolPacket) : Prop :=
  (packet.netOp = OP_Combined → CutInto CombinedPiece packet.payloadBytes)
    ∧ (packet.netOp = OP_AppCombined → CutInto AppCombinedPiece packet.payloadBytes)
    ∧ (packet.netOp = OP_Packet → packet.arqSeq = s.arqSeqExp →
        minLength packet.payload ≤ packet.payloadLength.toNat)
    ∧ (packet.netOp = OP_Oversized → packet.arqSeq = s.arqSeqExp →
        (s.fragment.addFragment packet).1.isComplete = true →
        minLength (s.fragment.addFragment packet).1.data
          ≤ (s.fragment.addFragment packet).1.dataSize)

end EQPacketStream

-----------------------------------------------------------------------------------------
-- Reads one byte on
-----------------------------------------------------------------------------------------

theorem readBytes_succ (data : Bytes) (n : Nat)
    : readBytes data (n + 1) = byteAt data 0 :: readBytes (data.drop 1) n := by
  cases data with
  | nil => simp [readBytes, List.replicate_succ]
  | cons b rest => simp [readBytes]

/-- A read is two reads, one behind the other. -/
theorem readBytes_add (data : Bytes) (m n : Nat)
    : readBytes data (m + n) = readBytes data m ++ readBytes (data.drop m) n := by
  induction m generalizing data with
  | zero => simp [readBytes]
  | succ m ih =>
      rw [Nat.succ_add, readBytes_succ, readBytes_succ, ih, List.cons_append, List.drop_drop,
        Nat.add_comm 1 m]

theorem eqtohuint16_readBytes (data : Bytes) {n : Nat} (two : 2 ≤ n)
    : eqtohuint16 (readBytes data n) = eqtohuint16 data := by
  simp only [eqtohuint16, byteAt_readBytes data (show 0 < n by omega),
    byteAt_readBytes data (show 1 < n by omega)]

/-- A read that starts with some bytes starts with the read of as many. -/
theorem readBytes_of_append {data first rest : Bytes} {n : Nat}
    (same : readBytes data n = first ++ rest)
    : readBytes data first.length = first ∧ first.length ≤ n := by
  have length := congrArg List.length same
  rw [readBytes_length, List.length_append] at length
  have le : first.length ≤ n := by omega
  refine ⟨?_, le⟩
  rw [← readBytes_readBytes le, same, readBytes_append]

theorem minLength_congr {data content : Bytes} (same : eqtohuint16 content = eqtohuint16 data)
    : minLength content = minLength data := by
  simp only [minLength, same]

theorem two_le_minLength (data : Bytes) : 2 ≤ minLength data := by
  unfold minLength
  split <;> omega

theorem two_le_opcodeLength (data : Bytes) : 2 ≤ opcodeLength data := by
  unfold opcodeLength
  split <;> omega

-----------------------------------------------------------------------------------------
-- One record
-----------------------------------------------------------------------------------------

/-- The payload of an inner packet has not wrapped when it has its header. -/
theorem ofSubpacket_unwrapped_iff (packet : Bytes) (length : UInt32)
    : (Item.subpacket (.ofSubpacket packet length)).Unwrapped
      ↔ 2 + arqSeqLength (eqtohuint16 packet) ≤ length.toNat := by
  have bound := length.toNat_lt
  cases seq : (eqtohuint16 packet == OP_Packet || eqtohuint16 packet == OP_Oversized) with
  | true =>
      have inner : (EQProtocolPacket.ofSubpacket packet length).payloadLength = length - 2 - 2
          ∧ (EQProtocolPacket.ofSubpacket packet length).length = length := by
        simp only [EQProtocolPacket.ofSubpacket, EQProtocolPacket.init,
          EQProtocolPacket.hasFlags, EQProtocolPacket.hasCRC, EQProtocolPacket.hasArqSeq, seq,
          Bool.not_false, Bool.false_eq_true, if_true, if_false, Bool.and_true,
          EQProtocolPacket.takeArqSeq, UInt32.sub_zero, and_self]
      simp only [Item.Unwrapped, inner, UInt32.le_iff_toNat_le, arqSeqLength, seq, if_true,
        UInt32.toNat_sub, UInt32.toNat_ofNat]
      omega
  | false =>
      have inner : (EQProtocolPacket.ofSubpacket packet length).payloadLength = length - 2
          ∧ (EQProtocolPacket.ofSubpacket packet length).length = length := by
        simp only [EQProtocolPacket.ofSubpacket, EQProtocolPacket.init,
          EQProtocolPacket.hasFlags, EQProtocolPacket.hasCRC, EQProtocolPacket.hasArqSeq, seq,
          Bool.not_false, Bool.false_eq_true, if_true, if_false, Bool.false_and,
          UInt32.sub_zero, and_self]
      simp only [Item.Unwrapped, inner, UInt32.le_iff_toNat_le, arqSeqLength, seq,
        Bool.false_eq_true, if_false, UInt32.toNat_sub, UInt32.toNat_ofNat]
      omega

theorem arqSeqLength_app {netOp : UInt16} (app : IS_NET_OPCODE netOp = false)
    : arqSeqLength netOp = 0 := by
  have kind : IS_APP_OPCODE netOp = true := by
    simpa [IS_NET_OPCODE, IS_APP_OPCODE] using app
  rw [arqSeqLength, EQProtocolPacket.hasArqSeq_app kind]
  rfl

theorem Handed.inside_iff (h : Handed) (payloadLength : Nat)
    : h.Inside payloadLength
      ↔ h.opcodeLength ≤ h.declared
        ∧ h.start + h.declared ≤ payloadLength
        ∧ h.offset + h.item.length ≤ payloadLength
        ∧ h.item.Unwrapped :=
  ⟨fun inside => ⟨inside.opcode, inside.record, inside.range, inside.unwrapped⟩,
    fun ⟨opcode, record, range, unwrapped⟩ => ⟨opcode, record, range, unwrapped⟩⟩

/-- A record of an `OP_Combined` is inside exactly when it holds its opcode and the cursor's
next place is not behind the payload.
-/
theorem combinedHanded_inside_iff (cursor remaining : Nat) (data : Bytes)
    : (combinedHanded cursor data).Inside (cursor + remaining)
      ↔ minLength (data.drop 1) ≤ (byteAt data 0).toNat ∧ combinedTaken data ≤ remaining := by
  have small := (byteAt data 0).toNat_lt
  rw [Handed.inside_iff]
  simp only [combinedHanded, combinedRecord, combinedTaken, minLength, opcodeLength]
  by_cases escaped : eqtohuint16 (data.drop 1) = 0
  · simp only [escaped, if_true, Item.length, Item.Unwrapped, and_true, toSizeT]
    omega
  · simp only [escaped, if_false]
    cases net : IS_NET_OPCODE (eqtohuint16 (data.drop 1)) with
    | true =>
        have inner : (EQProtocolPacket.ofSubpacket (data.drop 1)
            (byteAt data 0).toUInt32).length.toNat = (byteAt data 0).toNat := by
          rw [EQProtocolPacket.ofSubpacket, EQProtocolPacket.init_length, UInt8.toNat_toUInt32]
        simp only [if_true, Item.length, ofSubpacket_unwrapped_iff, inner, UInt8.toNat_toUInt32]
        omega
    | false =>
        simp only [Bool.false_eq_true, if_false, Item.length, Item.Unwrapped, and_true, toSizeT,
          arqSeqLength_app net]
        omega

/-- How far the cursor moves over a record of an `OP_AppCombined` that holds its opcode. -/
theorem appCombinedHanded_inside_iff (cursor remaining : Nat) (data : Bytes)
    : (appCombinedHanded cursor data).Inside (cursor + remaining)
      ↔ (appCombinedHanded cursor data).opcodeLength ≤ (appCombinedHanded cursor data).declared
        ∧ appCombinedTaken data ≤ remaining := by
  rw [Handed.inside_iff]
  unfold appCombinedHanded
  simp only [appCombinedRecord, appCombinedTaken]
  by_cases short : byteAt data 0 ≠ 0xff
  · have small := (byteAt data 0).toNat_lt
    simp only [short, ne_eq, not_false_eq_true, if_true, opcodeLength]
    by_cases escaped : eqtohuint16 (data.drop 1) = 0
    · have shorter : (byteAt data 0 - 1).toNat = ((byteAt data 0).toNat + 255) % 256 := by
        rw [UInt8.toNat_sub]
        simp only [UInt8.toNat_ofNat]
        omega
      simp only [escaped, if_true, Item.length, Item.Unwrapped, and_true, toSizeT, shorter]
      omega
    · simp only [escaped, if_false, Item.length, Item.Unwrapped, and_true, toSizeT]
      omega
  · have small := (eqntohuint16 (data.drop 1)).toNat_lt
    simp only [short, if_false, opcodeLength]
    by_cases escaped : eqtohuint16 (data.drop 3) = 0
    · have shorter : (eqntohuint16 (data.drop 1) - 1).toNat
          = ((eqntohuint16 (data.drop 1)).toNat + 65535) % 65536 := by
        rw [UInt16.toNat_sub]
        simp only [UInt16.toNat_ofNat]
        omega
      simp only [escaped, if_true, Item.length, Item.Unwrapped, and_true, toSizeT, shorter]
      omega
    · simp only [escaped, if_false, Item.length, Item.Unwrapped, and_true, toSizeT]
      omega

/-- Bytes that start with some whole piece are pieces when the others are. -/
theorem CutInto.cons {piece : Bytes → Prop} {first rest : Bytes} (whole : piece first)
    (cut : CutInto piece rest)
    : CutInto piece (first ++ rest) := by
  obtain ⟨pieces, all, rfl⟩ := cut
  exact ⟨first :: pieces, List.forall_mem_cons.mpr ⟨whole, all⟩, rfl⟩

/-- A loop over records hands on what is inside exactly when it runs over whole pieces, by
induction on the loop: `cut` makes the record at the cursor a piece, and `fits` the piece at the
cursor a record.
-/
theorem handRecords_inside_iff {handed : Nat → Bytes → Handed} {taken : Bytes → Nat}
    {piece : Bytes → Prop} (moves : ∀ data, 0 < taken data)
    (cut
      : ∀ {cursor remaining data}, (handed cursor data).Inside (cursor + remaining) →
          taken data ≤ remaining ∧ piece (readBytes data (taken data)))
    (fits
      : ∀ {cursor remaining data first rest}, piece first →
          readBytes data remaining = first ++ rest →
          taken data = first.length ∧ (handed cursor data).Inside (cursor + remaining))
    {steps remaining : Nat} (cursor : Nat) (data : Bytes) (enough : remaining ≤ steps)
    : (∀ h ∈ handRecords handed taken steps remaining cursor data,
          h.Inside (cursor + remaining))
      ↔ CutInto piece (readBytes data remaining) := by
  induction steps generalizing remaining cursor data with
  | zero =>
      obtain rfl : remaining = 0 := by omega
      refine iff_of_true (by simp [handRecords]) ⟨[], by simp, ?_⟩
      simp [readBytes]
  | succ steps ih =>
      rw [handRecords]
      split
      · rename_i done
        refine iff_of_true (by simp) ⟨[], by simp, ?_⟩
        simp [readBytes, done]
      · rename_i more
        have moved := moves data
        have next (le : taken data ≤ remaining)
            : cursor + taken data + (remaining - taken data) = cursor + remaining := by omega
        have split (le : taken data ≤ remaining)
            : readBytes data remaining
              = readBytes data (taken data)
                ++ readBytes (data.drop (taken data)) (remaining - taken data) := by
          rw [← readBytes_add, Nat.add_sub_cancel' le]
        have later (le : taken data ≤ remaining) :=
          ih (cursor + taken data) (data.drop (taken data))
            (show remaining - taken data ≤ steps by omega)
        rw [List.forall_mem_cons]
        constructor
        · rintro ⟨first, rest⟩
          obtain ⟨le, whole⟩ := cut first
          rw [split le]
          rw [← next le] at rest
          exact ((later le).mp rest).cons whole
        · rintro ⟨pieces, all, same⟩
          cases pieces with
          | nil =>
              have length := congrArg List.length same
              rw [readBytes_length] at length
              exact absurd length more
          | cons first pieces =>
              obtain ⟨whole, all⟩ := List.forall_mem_cons.mp all
              obtain ⟨length, inside⟩ := @fits cursor _ _ _ _ whole same
              obtain ⟨read, le⟩ := readBytes_of_append same
              rw [← length] at read le
              refine ⟨inside, ?_⟩
              rw [split le, List.flatten_cons, read] at same
              rw [← next le]
              exact (later le).mpr ⟨pieces, all, List.append_cancel_left same⟩

-----------------------------------------------------------------------------------------
-- The two grammars
-----------------------------------------------------------------------------------------

theorem combinedTaken_eq (data : Bytes)
    : combinedTaken data
      = (byteAt data 0).toNat + (if eqtohuint16 (data.drop 1) = 0 then 1 else 0) + 1 := by
  simp only [combinedTaken, combinedRecord]
  split_ifs <;> simp only <;> omega

theorem combined_cut {cursor remaining : Nat} {data : Bytes}
    (inside : (combinedHanded cursor data).Inside (cursor + remaining))
    : combinedTaken data ≤ remaining ∧ CombinedPiece (readBytes data (combinedTaken data)) := by
  obtain ⟨enough, le⟩ := (combinedHanded_inside_iff cursor remaining data).mp inside
  have two := two_le_minLength (data.drop 1)
  have opcode (n : Nat) (long : (byteAt data 0).toNat ≤ n)
      : eqtohuint16 (readBytes (data.drop 1) n) = eqtohuint16 (data.drop 1) :=
    eqtohuint16_readBytes _ (by omega)
  refine ⟨le, byteAt data 0,
    readBytes (data.drop 1)
      ((byteAt data 0).toNat + if eqtohuint16 (data.drop 1) = 0 then 1 else 0), ?_, ?_, ?_⟩
  · rw [combinedTaken_eq, readBytes_succ]
  · rw [readBytes_length, opcode _ (by omega)]
  · rwa [minLength_congr (opcode _ (by omega))]

theorem combined_fits {cursor remaining : Nat} {data first rest : Bytes}
    (whole : CombinedPiece first) (same : readBytes data remaining = first ++ rest)
    : combinedTaken data = first.length
      ∧ (combinedHanded cursor data).Inside (cursor + remaining) := by
  obtain ⟨length, content, rfl, size, enough⟩ := whole
  have two := two_le_minLength content
  obtain ⟨read, le⟩ := readBytes_of_append same
  rw [List.length_cons, readBytes_succ, List.cons.injEq] at read
  obtain ⟨rfl, read⟩ := read
  have opcode : eqtohuint16 content = eqtohuint16 (data.drop 1) := by
    rw [← read]
    exact eqtohuint16_readBytes _ (by omega)
  rw [opcode] at size
  have taken : combinedTaken data = (byteAt data 0 :: content).length := by
    rw [combinedTaken_eq, List.length_cons, size]
  refine ⟨taken, (combinedHanded_inside_iff cursor remaining data).mpr ⟨?_, by omega⟩⟩
  rwa [← minLength_congr opcode]

/-- The cursor moves over a record that holds its opcode by its length bytes and its length. -/
theorem appCombinedTaken_eq {data : Bytes} (cursor : Nat)
    (holds : (appCombinedHanded cursor data).opcodeLength ≤ (appCombinedHanded cursor data).declared)
    : cursor + appCombinedTaken data
      = (appCombinedHanded cursor data).start + (appCombinedHanded cursor data).declared := by
  unfold appCombinedHanded at holds ⊢
  simp only [appCombinedTaken, appCombinedRecord]
  by_cases short : byteAt data 0 ≠ 0xff
  · have small := (byteAt data 0).toNat_lt
    simp only [short, ne_eq, not_false_eq_true, if_true, opcodeLength] at holds ⊢
    split_ifs at holds ⊢
    · have shorter : (byteAt data 0 - 1).toNat = (byteAt data 0).toNat - 1 := by
        rw [UInt8.toNat_sub]
        simp only [UInt8.toNat_ofNat]
        omega
      simp only [shorter]
      omega
    · simp only
      omega
  · have small := (eqntohuint16 (data.drop 1)).toNat_lt
    simp only [short, if_false, opcodeLength] at holds ⊢
    split_ifs at holds ⊢
    · have shorter : (eqntohuint16 (data.drop 1) - 1).toNat
          = (eqntohuint16 (data.drop 1)).toNat - 1 := by
        rw [UInt16.toNat_sub]
        simp only [UInt16.toNat_ofNat]
        omega
      simp only [shorter]
      omega
    · simp only
      omega

/-- The two bytes of a network-order number are the number's. -/
theorem networkBytes16_eqntohuint16 (data : Bytes)
    : networkBytes16 (eqntohuint16 data) = [byteAt data 0, byteAt data 1] := by
  have high := (byteAt data 0).toNat_lt
  have low := (byteAt data 1).toNat_lt
  have value : (eqntohuint16 data).toNat
      = (byteAt data 0).toNat * 256 + (byteAt data 1).toNat := by
    rw [eqntohuint16, UInt16.toNat_ofNat']
    omega
  have first : ((byteAt data 0).toNat * 256 + (byteAt data 1).toNat) / 256
      = (byteAt data 0).toNat := by omega
  have second : ((byteAt data 0).toNat * 256 + (byteAt data 1).toNat) % 256
      = (byteAt data 1).toNat := by omega
  simp only [networkBytes16, value, first, second, UInt8.ofNat_toNat]

theorem appCombinedHanded_short (cursor : Nat) {data : Bytes} (short : byteAt data 0 ≠ 0xff)
    : (appCombinedHanded cursor data).start = cursor + 1
      ∧ (appCombinedHanded cursor data).declared = (byteAt data 0).toNat
      ∧ (appCombinedHanded cursor data).opcodeLength = opcodeLength (data.drop 1) := by
  simp only [appCombinedHanded, short, ne_eq, not_false_eq_true, if_true, and_self]

theorem appCombinedHanded_long (cursor : Nat) {data : Bytes} (marker : byteAt data 0 = 0xff)
    : (appCombinedHanded cursor data).start = cursor + 3
      ∧ (appCombinedHanded cursor data).declared = (eqntohuint16 (data.drop 1)).toNat
      ∧ (appCombinedHanded cursor data).opcodeLength = opcodeLength (data.drop 3) := by
  simp only [appCombinedHanded, marker, ne_eq, not_true_eq_false, if_false, and_self]

theorem appCombined_cut {cursor remaining : Nat} {data : Bytes}
    (inside : (appCombinedHanded cursor data).Inside (cursor + remaining))
    : appCombinedTaken data ≤ remaining
      ∧ AppCombinedPiece (readBytes data (appCombinedTaken data)) := by
  obtain ⟨enough, le⟩ := (appCombinedHanded_inside_iff cursor remaining data).mp inside
  have taken := appCombinedTaken_eq cursor enough
  refine ⟨le, ?_⟩
  by_cases short : byteAt data 0 ≠ 0xff
  · have fields := appCombinedHanded_short cursor short
    rw [fields.1, fields.2.1] at taken
    rw [fields.2.1, fields.2.2] at enough
    have moved : appCombinedTaken data = (byteAt data 0).toNat + 1 := by omega
    have below : (byteAt data 0).toNat < 255 := by
      have small := (byteAt data 0).toNat_lt
      have other : (byteAt data 0).toNat ≠ 255 := fun h => short (UInt8.toNat_inj.mp h)
      omega
    have two := two_le_opcodeLength (data.drop 1)
    have opcode := eqtohuint16_readBytes (data.drop 1) (show 2 ≤ (byteAt data 0).toNat by omega)
    refine ⟨readBytes (data.drop 1) (byteAt data 0).toNat, ?_, Or.inl ⟨?_, ?_⟩⟩
    · rw [readBytes_length]
      simpa only [opcodeLength, opcode] using enough
    · rwa [readBytes_length]
    · rw [readBytes_length, UInt8.ofNat_toNat, moved, readBytes_succ]
  · have marker : byteAt data 0 = 0xff := not_not.mp short
    have fields := appCombinedHanded_long cursor marker
    rw [fields.1, fields.2.1] at taken
    rw [fields.2.1, fields.2.2] at enough
    have moved : appCombinedTaken data = (eqntohuint16 (data.drop 1)).toNat + 1 + 1 + 1 := by omega
    have two := two_le_opcodeLength (data.drop 3)
    have opcode := eqtohuint16_readBytes (data.drop 3)
      (show 2 ≤ (eqntohuint16 (data.drop 1)).toNat by omega)
    refine ⟨readBytes (data.drop 3) (eqntohuint16 (data.drop 1)).toNat, ?_, Or.inr ⟨?_, ?_⟩⟩
    · rw [readBytes_length]
      simpa only [opcodeLength, opcode] using enough
    · rw [readBytes_length]
      exact (eqntohuint16 (data.drop 1)).toNat_lt
    · rw [readBytes_length, UInt16.ofNat_toNat, networkBytes16_eqntohuint16, moved,
        readBytes_succ, readBytes_succ, readBytes_succ, List.drop_drop, List.drop_drop, marker]
      simp [byteAt]

theorem appCombined_fits {cursor remaining : Nat} {data first rest : Bytes}
    (whole : AppCombinedPiece first) (same : readBytes data remaining = first ++ rest)
    : appCombinedTaken data = first.length
      ∧ (appCombinedHanded cursor data).Inside (cursor + remaining) := by
  obtain ⟨content, enough, ⟨small, rfl⟩ | ⟨small, rfl⟩⟩ := whole
  · obtain ⟨read, le⟩ := readBytes_of_append same
    rw [List.length_cons, readBytes_succ, List.cons.injEq] at read
    obtain ⟨head, read⟩ := read
    have two := two_le_opcodeLength content
    have length : (byteAt data 0).toNat = content.length := by
      rw [head, UInt8.toNat_ofNat']
      omega
    have short : byteAt data 0 ≠ 0xff := by
      intro marker
      rw [marker] at length
      simp at length
      omega
    have opcode : eqtohuint16 content = eqtohuint16 (data.drop 1) := by
      rw [← read]
      exact eqtohuint16_readBytes _ (by omega)
    have fields := appCombinedHanded_short cursor short
    have holds : (appCombinedHanded cursor data).opcodeLength
        ≤ (appCombinedHanded cursor data).declared := by
      rw [fields.2.1, fields.2.2, length]
      simpa only [opcodeLength, opcode] using enough
    have taken := appCombinedTaken_eq cursor holds
    rw [fields.1, fields.2.1, length] at taken
    rw [List.length_cons] at le ⊢
    exact ⟨by omega, (appCombinedHanded_inside_iff cursor remaining data).mpr ⟨holds, by omega⟩⟩
  · obtain ⟨read, le⟩ := readBytes_of_append same
    have size : (0xff :: (networkBytes16 (UInt16.ofNat content.length) ++ content)).length
        = content.length + 1 + 1 + 1 := by
      simp [networkBytes16]
    rw [size, readBytes_succ, readBytes_succ, readBytes_succ, List.drop_drop, List.drop_drop]
      at read
    have two := two_le_opcodeLength content
    have number : eqntohuint16 (data.drop 1) = UInt16.ofNat content.length := by
      have bytes : networkBytes16 (eqntohuint16 (data.drop 1))
          = networkBytes16 (UInt16.ofNat content.length) := by
        rw [networkBytes16_eqntohuint16]
        simp only [networkBytes16, List.cons_append, List.nil_append, List.cons.injEq] at read ⊢
        refine ⟨read.2.1, ?_, trivial⟩
        simpa [byteAt] using read.2.2.1
      have back := congrArg eqntohuint16 bytes
      have left := eqntohuint16_networkBytes16 (eqntohuint16 (data.drop 1)) []
      have right := eqntohuint16_networkBytes16 (UInt16.ofNat content.length) []
      rw [List.append_nil] at left right
      exact left.symm.trans (back.trans right)
    have length : (eqntohuint16 (data.drop 1)).toNat = content.length := by
      rw [number, UInt16.toNat_ofNat']
      omega
    simp only [networkBytes16, List.cons_append, List.nil_append, List.cons.injEq] at read
    have marker : byteAt data 0 = 0xff := read.1
    have opcode : eqtohuint16 content = eqtohuint16 (data.drop 3) := by
      rw [← read.2.2.2]
      exact eqtohuint16_readBytes _ (by omega)
    have fields := appCombinedHanded_long cursor marker
    have holds : (appCombinedHanded cursor data).opcodeLength
        ≤ (appCombinedHanded cursor data).declared := by
      rw [fields.2.1, fields.2.2, length]
      simpa only [opcodeLength, opcode] using enough
    have taken := appCombinedTaken_eq cursor holds
    rw [fields.1, fields.2.1, length] at taken
    rw [size] at le ⊢
    exact ⟨by omega, (appCombinedHanded_inside_iff cursor remaining data).mpr ⟨holds, by omega⟩⟩

-----------------------------------------------------------------------------------------
-- Every branch
-----------------------------------------------------------------------------------------

/-- The content of a carrier is inside it exactly when the carrier holds its opcode. -/
theorem unwrapHanded_inside_iff {data : Bytes} {length : UInt32} {size : Nat}
    {remaining : Nat → Nat} (same : length.toNat = size)
    (rest : ∀ n ≤ size, n ≤ 3 → remaining n = size - n)
    : (unwrapHanded data size (unwrap data length remaining)).Inside size
      ↔ minLength data ≤ size := by
  rw [Handed.inside_iff]
  simp only [unwrapHanded, unwrap, minLength, opcodeLength]
  by_cases escaped : eqtohuint16 data = 0
  · simp only [escaped, if_true, Item.length, Item.Unwrapped]
    constructor
    · exact fun inside => inside.1
    · intro enough
      have taken := rest 3 enough (Nat.le_refl 3)
      exact ⟨enough, by omega, by rw [taken]; omega, trivial⟩
  · simp only [escaped, if_false]
    cases net : IS_NET_OPCODE (eqtohuint16 data) with
    | true =>
        have inner : (EQProtocolPacket.ofSubpacket data length).length.toNat = size := by
          rw [EQProtocolPacket.ofSubpacket, EQProtocolPacket.init_length, same]
        simp only [if_true, Item.length, ofSubpacket_unwrapped_iff, inner, same]
        omega
    | false =>
        simp only [Bool.false_eq_true, if_false, Item.length, Item.Unwrapped,
          arqSeqLength_app net]
        constructor
        · exact fun inside => inside.1
        · intro enough
          have taken := rest 2 enough (by omega)
          exact ⟨enough, by omega, by rw [taken]; omega, trivial⟩

namespace EQPacketStream

/-- A completed message has the length a 32-bit total declares. -/
theorem isComplete_small {f : EQPacketFragmentSequence} (complete : f.isComplete = true)
    : f.dataSize < 4294967296 := by
  have bound := f.totalLength.toNat_lt
  simp only [EQPacketFragmentSequence.isComplete, Bool.and_eq_true, beq_iff_eq] at complete
  omega

/-- A packet hands on what is inside what it unwraps exactly when that holds its records. -/
theorem handsInside_iff (s : EQPacketStream) (packet : EQProtocolPacket)
    : s.HandsInside packet ↔ s.HoldsRecords packet := by
  unfold HandsInside HoldsRecords handed unwrappedLength
  by_cases combined : packet.netOp = OP_Combined
  · have other : OP_Combined ≠ OP_AppCombined ∧ OP_Combined ≠ OP_Packet
        ∧ OP_Combined ≠ OP_Oversized := by decide
    have loop
        : (∀ h ∈ handRecords combinedHanded combinedTaken packet.payloadLength.toNat
              packet.payloadLength.toNat 0 packet.payload,
            h.Inside (0 + packet.payloadLength.toNat))
          ↔ CutInto CombinedPiece packet.payloadBytes :=
      handRecords_inside_iff combinedRecord_moves combined_cut combined_fits 0 _ (Nat.le_refl _)
    rw [Nat.zero_add] at loop
    simpa [combined, other] using loop
  by_cases appCombined : packet.netOp = OP_AppCombined
  · have other : OP_AppCombined ≠ OP_Packet ∧ OP_AppCombined ≠ OP_Oversized
        ∧ OP_AppCombined ≠ OP_Combined := by decide
    have loop
        : (∀ h ∈ handRecords appCombinedHanded appCombinedTaken packet.payloadLength.toNat
              packet.payloadLength.toNat 0 packet.payload,
            h.Inside (0 + packet.payloadLength.toNat))
          ↔ CutInto AppCombinedPiece packet.payloadBytes :=
      handRecords_inside_iff appCombinedRecord_moves appCombined_cut appCombined_fits 0 _
        (Nat.le_refl _)
    rw [Nat.zero_add] at loop
    simpa [appCombined, other] using loop
  by_cases sequenced : packet.netOp = OP_Packet
  · have other : OP_Packet ≠ OP_Oversized ∧ OP_Packet ≠ OP_Combined
        ∧ OP_Packet ≠ OP_AppCombined := by decide
    have content
        : (unwrapHanded packet.payload packet.payloadLength.toNat (unwrapPacket packet)).Inside
              packet.payloadLength.toNat
          ↔ minLength packet.payload ≤ packet.payloadLength.toNat :=
      unwrapHanded_inside_iff rfl fun n within small => payloadLength_sub rfl within small
    by_cases next : packet.arqSeq = s.arqSeqExp
    · simpa [sequenced, other, next] using content
    · simp [sequenced, other, next]
  by_cases oversized : packet.netOp = OP_Oversized
  · generalize (s.fragment.addFragment packet).1 = fragment
    by_cases completes : packet.arqSeq = s.arqSeqExp ∧ fragment.isComplete = true
    · have small := isComplete_small completes.2
      have size : (UInt32.ofNat fragment.dataSize).toNat = fragment.dataSize := by
        rw [UInt32.toNat_ofNat']
        exact Nat.mod_eq_of_lt small
      have content
          : (unwrapHanded fragment.data fragment.dataSize
              (unwrapFragment fragment.data fragment.dataSize)).Inside fragment.dataSize
            ↔ minLength fragment.data ≤ fragment.dataSize :=
        unwrapHanded_inside_iff size fun n within _ => toSizeT_sub within (by omega)
      have other : OP_Oversized ≠ OP_Packet ∧ OP_Oversized ≠ OP_Combined
          ∧ OP_Oversized ≠ OP_AppCombined := by decide
      simpa [oversized, other, completes] using content
    · have silent : packet.arqSeq = s.arqSeqExp → fragment.isComplete ≠ true :=
        fun next complete => completes ⟨next, complete⟩
      have other : OP_Oversized ≠ OP_Packet ∧ OP_Oversized ≠ OP_Combined
          ∧ OP_Oversized ≠ OP_AppCombined := by decide
      simp only [oversized, other, if_false, if_true, if_neg completes, List.not_mem_nil,
        false_implies, implies_true, true_iff, true_and]
      exact fun _ next complete => absurd complete (silent next)
  · simp [combined, appCombined, sequenced, oversized]

end EQPacketStream
end Scry
