import Scry.Wire.ProtocolPacket

/-! The buffer that puts oversized packets back together.
`addFragment` also returns the copy it performed, since the source writes through a raw
pointer and only the extent of the copy shows whether it stayed inside the allocation.
-/

namespace Scry

/-- Hard ceiling on the total a first fragment may declare. -/
def kMaxFragmentBuffer : UInt32 := 4 * 1024 * 1024

/-- `EQPacketFragmentSequence`: the buffer, the declared total, the bytes filled in so far
and the size of the allocation, which outlives the messages it was made for.
-/
structure EQPacketFragmentSequence where
  data : Bytes
  totalLength : UInt32
  dataSize : Nat
  dataAllocSize : UInt32
  deriving DecidableEq

/-- The extent of one `memcpy` into the buffer. -/
structure BufferWrite where
  offset : Nat
  length : Nat
  deriving DecidableEq

namespace EQPacketFragmentSequence

/-- The constructor: no buffer yet. -/
def fresh : EQPacketFragmentSequence :=
  { data := [], totalLength := 0, dataSize := 0, dataAllocSize := 0 }

/-- Abandon the sequence; the buffer stays allocated. -/
def reset (f : EQPacketFragmentSequence) : EQPacketFragmentSequence :=
  { f with dataSize := 0, totalLength := 0 }

def isComplete (f : EQPacketFragmentSequence) : Bool :=
  f.dataSize != 0 && f.totalLength.toNat == f.dataSize

/-- The total a first fragment declares in its leading four bytes. -/
def declaredTotal (packet : EQProtocolPacket) : UInt32 := eqntohuint32 packet.payload

/-- Enlarge the buffer if the declared total does not fit; a new buffer is uninitialised. -/
def reserve (f : EQPacketFragmentSequence) (total : UInt32) : EQPacketFragmentSequence :=
  if total > f.dataAllocSize then
    { f with
      totalLength := total
      dataAllocSize := total
      data := List.replicate total.toNat 0 }
  else { f with totalLength := total }

/-- `addFragment` on an empty sequence: the payload starts with the total length. -/
def addFirst (f : EQPacketFragmentSequence) (packet : EQProtocolPacket)
    : EQPacketFragmentSequence × Option BufferWrite :=
  let total := declaredTotal packet
  if total = 0 then (f.reset, none)
  else if total > kMaxFragmentBuffer then (f.reset, none)
  else
    let reserved := f.reserve total
    let n := (packet.payloadLength - 4).toNat
    ({ reserved with
        data := overwrite reserved.data 0 (readBytes (packet.payload.drop 4) n)
        dataSize := n },
      some ⟨0, n⟩)

/-- `addFragment` on a started sequence: the payload continues it. -/
def addNext (f : EQPacketFragmentSequence) (packet : EQProtocolPacket)
    : EQPacketFragmentSequence × Option BufferWrite :=
  let n := packet.payloadLength.toNat
  if f.dataSize + n > f.dataAllocSize.toNat then (f.reset, none)
  else
    ({ f with
        data := overwrite f.data f.dataSize (readBytes packet.payload n)
        dataSize := f.dataSize + n },
      some ⟨f.dataSize, n⟩)

/-- `EQPacketFragmentSequence::addFragment`. -/
def addFragment (f : EQPacketFragmentSequence) (packet : EQProtocolPacket)
    : EQPacketFragmentSequence × Option BufferWrite :=
  if f.dataSize = 0 then f.addFirst packet else f.addNext packet

-----------------------------------------------------------------------------------------
-- What each operation leaves
-----------------------------------------------------------------------------------------

@[simp]
theorem reset_dataSize (f : EQPacketFragmentSequence) : f.reset.dataSize = 0 := rfl

@[simp]
theorem reset_totalLength (f : EQPacketFragmentSequence) : f.reset.totalLength = 0 := rfl

@[simp]
theorem reset_dataAllocSize (f : EQPacketFragmentSequence)
    : f.reset.dataAllocSize = f.dataAllocSize := rfl

@[simp]
theorem reserve_totalLength (f : EQPacketFragmentSequence) (total : UInt32)
    : (f.reserve total).totalLength = total := by
  unfold reserve
  split <;> rfl

/-- The reserved buffer holds the declared total. -/
theorem le_reserve_dataAllocSize (f : EQPacketFragmentSequence) (total : UInt32)
    : total.toNat ≤ (f.reserve total).dataAllocSize.toNat := by
  unfold reserve
  split
  · exact Nat.le_refl _
  · rename_i fits
    exact UInt32.le_iff_toNat_le.mp (UInt32.not_lt.mp fits)

/-- The length of a first fragment's data, when the length bytes are there. -/
theorem firstLength {packet : EQProtocolPacket} (sized : 4 ≤ packet.payloadLength.toNat)
    : (packet.payloadLength - 4).toNat = packet.payloadLength.toNat - 4 := by
  have le : (4 : UInt32) ≤ packet.payloadLength := UInt32.le_iff_toNat_le.mpr sized
  rw [UInt32.toNat_sub_of_le _ _ le]
  rfl

/-- A first fragment is taken when its declared total is positive and under the ceiling. -/
def Opens (packet : EQProtocolPacket) : Prop :=
  declaredTotal packet ≠ 0 ∧ declaredTotal packet ≤ kMaxFragmentBuffer

instance (packet : EQProtocolPacket) : Decidable (Opens packet) :=
  inferInstanceAs (Decidable (_ ∧ _))

/-- Every outcome of `addFragment`: a reset, a first piece at offset zero, or a further
piece behind the bytes already there.
-/
theorem addFragment_cases (f : EQPacketFragmentSequence) (packet : EQProtocolPacket)
    : (f.dataSize = 0 ∧ ¬ Opens packet ∧ f.addFragment packet = (f.reset, none))
      ∨ (f.dataSize = 0
        ∧ Opens packet
        ∧ f.addFragment packet
          = ({ f.reserve (declaredTotal packet) with
                data :=
                  overwrite (f.reserve (declaredTotal packet)).data 0
                    (readBytes (packet.payload.drop 4) (packet.payloadLength - 4).toNat)
                dataSize := (packet.payloadLength - 4).toNat },
            some ⟨0, (packet.payloadLength - 4).toNat⟩))
      ∨ (f.dataSize ≠ 0
        ∧ f.dataAllocSize.toNat < f.dataSize + packet.payloadLength.toNat
        ∧ f.addFragment packet = (f.reset, none))
      ∨ (f.dataSize ≠ 0
        ∧ f.dataSize + packet.payloadLength.toNat ≤ f.dataAllocSize.toNat
        ∧ f.addFragment packet
          = ({ f with
                data := overwrite f.data f.dataSize packet.payloadBytes
                dataSize := f.dataSize + packet.payloadLength.toNat },
            some ⟨f.dataSize, packet.payloadLength.toNat⟩)) := by
  by_cases started : f.dataSize = 0
  · simp only [addFragment, started, if_true, addFirst]
    by_cases zero : declaredTotal packet = 0
    · exact Or.inl ⟨trivial, fun opens => opens.1 zero, by simp [zero]⟩
    · by_cases large : declaredTotal packet > kMaxFragmentBuffer
      · exact Or.inl ⟨trivial, fun opens => absurd opens.2 (UInt32.not_le.mpr large),
          by simp [zero, large]⟩
      · exact Or.inr (Or.inl ⟨trivial, ⟨zero, UInt32.not_lt.mp large⟩, by simp [zero, large]⟩)
  · simp only [addFragment, started, if_false, addNext]
    by_cases overrun : f.dataSize + packet.payloadLength.toNat > f.dataAllocSize.toNat
    · exact Or.inr (Or.inr (Or.inl ⟨started, overrun, by simp [overrun]⟩))
    · refine Or.inr (Or.inr (Or.inr ⟨started, Nat.not_lt.mp overrun, ?_⟩))
      simp [overrun, EQProtocolPacket.payloadBytes]

/-- The buffer holds the given bytes of a message of the given total. -/
structure Buffers (f : EQPacketFragmentSequence) (total : Nat) (bytes : Bytes) : Prop where
  declared : f.totalLength.toNat = total
  filled : f.dataSize = bytes.length
  content : ∃ rest, f.data = bytes ++ rest
  room : total ≤ f.dataAllocSize.toNat

/-- The buffered bytes are what is read from the front of the buffer. -/
theorem Buffers.readBytes {f : EQPacketFragmentSequence} {total : Nat} {bytes : Bytes}
    (buffers : f.Buffers total bytes)
    : readBytes f.data f.dataSize = bytes := by
  obtain ⟨rest, data⟩ := buffers.content
  rw [buffers.filled, data, readBytes_append]

/-- A sequence is complete when what it buffers is not empty and adds up to the total. -/
theorem Buffers.isComplete_iff {f : EQPacketFragmentSequence} {total : Nat} {bytes : Bytes}
    (buffers : f.Buffers total bytes)
    : f.isComplete = true ↔ bytes ≠ [] ∧ bytes.length = total := by
  simp only [isComplete, buffers.filled, buffers.declared, Bool.and_eq_true, bne_iff_ne, ne_eq,
    List.length_eq_zero_iff, beq_iff_eq]
  exact and_congr_right (fun _ => eq_comm)

/-- Filling a reserved buffer from its start. -/
theorem buffers_reserve (f : EQPacketFragmentSequence) (total : UInt32) {src : Bytes} {n : Nat}
    (length : src.length = n)
    : Buffers
        { f.reserve total with
          data := overwrite (f.reserve total).data 0 src
          dataSize := n }
        total.toNat src where
  declared := by simp
  filled := length.symm
  content := ⟨(f.reserve total).data.drop (0 + src.length), by simp [overwrite, readBytes]⟩
  room := f.le_reserve_dataAllocSize total

/-- A first fragment that is taken buffers its data behind the declared total. -/
theorem buffers_addFirst {f : EQPacketFragmentSequence} {packet : EQProtocolPacket}
    (empty : f.dataSize = 0) (opens : Opens packet)
    : (f.addFragment packet).1.Buffers (declaredTotal packet).toNat
        (readBytes (packet.payload.drop 4) (packet.payloadLength - 4).toNat) := by
  rcases f.addFragment_cases packet with
    ⟨_, closed, _⟩ | ⟨_, _, result⟩ | ⟨started, _⟩ | ⟨started, _⟩
  · exact absurd opens closed
  · rw [result]
    exact buffers_reserve f _ (readBytes_length _ _)
  · exact absurd empty started
  · exact absurd empty started

/-- A continuation that is taken is appended to what is buffered. -/
theorem Buffers.addNext {f : EQPacketFragmentSequence} {packet : EQProtocolPacket}
    {total : Nat} {bytes : Bytes} (buffers : f.Buffers total bytes) (started : f.dataSize ≠ 0)
    (room : f.dataSize + packet.payloadLength.toNat ≤ f.dataAllocSize.toNat)
    : (f.addFragment packet).1.Buffers total (bytes ++ packet.payloadBytes) := by
  rcases f.addFragment_cases packet with
    ⟨empty, _⟩ | ⟨empty, _⟩ | ⟨_, overrun, _⟩ | ⟨_, _, result⟩
  · exact absurd empty started
  · exact absurd empty started
  · omega
  · have length : packet.payloadBytes.length = packet.payloadLength.toNat := by
      simp [EQProtocolPacket.payloadBytes]
    rw [result]
    obtain ⟨rest, data⟩ := buffers.content
    refine ⟨buffers.declared, ?_, ⟨f.data.drop (f.dataSize + packet.payloadBytes.length), ?_⟩,
      buffers.room⟩
    · simp [buffers.filled, length]
    · simp only [overwrite]
      rw [buffers.filled, data, readBytes_append]

end EQPacketFragmentSequence

end Scry
