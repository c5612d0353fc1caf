import Scry.PacketStream.FragmentSequence

/-! The fragment buffer over whole runs of `addFragment` and `reset`.
The source bounds a continuation by the allocation and a first fragment by nothing, so the
declared total bounds the data exactly as long as each fragment respects it by itself.
-/

namespace Scry
namespace EQPacketFragmentSequence

/-- A call on the sequence. -/
inductive Call
  | addFragment (packet : EQProtocolPacket)
  | reset
  deriving DecidableEq

/-- The sequence after a call, and the copy the call performed. -/
def call (f : EQPacketFragmentSequence)
    : Call → EQPacketFragmentSequence × Option BufferWrite
  | .addFragment packet => f.addFragment packet
  | .reset => (f.reset, none)

/-- The calls of a run, each with the sequence it finds. -/
def steps (f : EQPacketFragmentSequence) : List Call → List (EQPacketFragmentSequence × Call)
  | [] => []
  | c :: rest => (f, c) :: (f.call c).1.steps rest

/-- The data stays within the declared total, and the total within the allocation. -/
structure Bounded (f : EQPacketFragmentSequence) : Prop where
  data_le : f.dataSize ≤ f.totalLength.toNat
  total_le : f.totalLength.toNat ≤ f.dataAllocSize.toNat

/-- The data a call brings, together with what is buffered, is more than the declared total. -/
def Exceeds (f : EQPacketFragmentSequence) : Call → Prop
  | .addFragment packet =>
      if f.dataSize = 0 then
        Opens packet ∧ (declaredTotal packet).toNat < (packet.payloadLength - 4).toNat
      else f.totalLength.toNat < f.dataSize + packet.payloadLength.toNat
  | .reset => False

/-- What a call owes: bounds afterwards, a copy inside the allocation, and a reset whenever
the declared total would be exceeded.
-/
structure Sound (f : EQPacketFragmentSequence) (c : Call) : Prop where
  bounded : (f.call c).1.Bounded
  inside
    : ∀ write, (f.call c).2 = some write
        → write.offset + write.length ≤ (f.call c).1.dataAllocSize.toNat
  abandoned : f.Exceeds c → (f.call c).1.dataSize = 0 ∧ (f.call c).1.totalLength = 0

/-- A first fragment carries at least its four length bytes. -/
def Sized (f : EQPacketFragmentSequence) : Call → Prop
  | .addFragment packet => f.dataSize = 0 → 4 ≤ packet.payloadLength.toNat
  | .reset => True

/-- The fragment stays within the declared total, or overruns the allocation as well. -/
def Respects (f : EQPacketFragmentSequence) : Call → Prop
  | .addFragment packet =>
      if f.dataSize = 0 then
        Opens packet → packet.payloadLength.toNat ≤ (declaredTotal packet).toNat + 4
      else
        f.dataSize + packet.payloadLength.toNat ≤ f.totalLength.toNat
        ∨ f.dataAllocSize.toNat < f.dataSize + packet.payloadLength.toNat
  | .reset => True

theorem bounded_reset (f : EQPacketFragmentSequence) : f.reset.Bounded :=
  ⟨Nat.le_refl _, Nat.zero_le _⟩

theorem bounded_fresh : fresh.Bounded := ⟨Nat.le_refl _, Nat.le_refl _⟩

/-- A call that abandons the sequence is sound. -/
theorem sound_of_abandoned {f : EQPacketFragmentSequence} {c : Call}
    (result : f.call c = (f.reset, none))
    : f.Sound c where
  bounded := by simpa only [result] using f.bounded_reset
  inside := by
    intro write none
    simp [result] at none
  abandoned := by
    intro _
    simp [result]

/-- A taken first fragment is sound exactly when its data fits the declared total. -/
theorem sound_first_iff {f : EQPacketFragmentSequence} {packet : EQProtocolPacket}
    {total : UInt32} {n : Nat} {data : Bytes} (empty : f.dataSize = 0)
    (declares : declaredTotal packet = total) (length : (packet.payloadLength - 4).toNat = n)
    (result
      : f.addFragment packet
        = ({ f.reserve total with data, dataSize := n }, some ⟨0, n⟩))
    : f.Sound (.addFragment packet) ↔ n ≤ total.toNat := by
  have room := f.le_reserve_dataAllocSize total
  constructor
  · intro sound
    simpa only [call, result, reserve_totalLength] using sound.bounded.data_le
  · intro fits
    refine ⟨⟨?_, ?_⟩, ?_, ?_⟩
    · simpa only [call, result, reserve_totalLength] using fits
    · simpa only [call, result, reserve_totalLength] using room
    · intro write same
      simp only [call, result, Option.some.injEq] at same ⊢
      subst same
      simpa using Nat.le_trans fits room
    · intro exceeds
      simp only [Exceeds, empty, if_true, declares, length] at exceeds
      exact absurd fits (Nat.not_le.mpr exceeds.2)

/-- A taken continuation is sound exactly when the data still fits the declared total. -/
theorem Bounded.sound_next_iff {f : EQPacketFragmentSequence} (bounded : f.Bounded)
    {packet : EQProtocolPacket} {data : Bytes} (started : f.dataSize ≠ 0)
    (room : f.dataSize + packet.payloadLength.toNat ≤ f.dataAllocSize.toNat)
    (result
      : f.addFragment packet
        = ({ f with data, dataSize := f.dataSize + packet.payloadLength.toNat },
            some ⟨f.dataSize, packet.payloadLength.toNat⟩))
    : f.Sound (.addFragment packet)
      ↔ f.dataSize + packet.payloadLength.toNat ≤ f.totalLength.toNat := by
  constructor
  · intro sound
    simpa only [call, result] using sound.bounded.data_le
  · intro fits
    refine ⟨⟨?_, ?_⟩, ?_, ?_⟩
    · simpa only [call, result] using fits
    · simpa only [call, result] using bounded.total_le
    · intro write same
      simp only [call, result, Option.some.injEq] at same ⊢
      subst same
      exact room
    · intro exceeds
      simp only [Exceeds, started, if_false] at exceeds
      exact absurd fits (Nat.not_le.mpr exceeds)

/-- From a bounded sequence a call is sound exactly when its fragment respects the declared
total; the four outcomes of `addFragment` are inspected in turn.
-/
theorem Bounded.sound_iff {f : EQPacketFragmentSequence} (bounded : f.Bounded) {c : Call}
    (sized : f.Sized c)
    : f.Sound c ↔ f.Respects c := by
  cases c with
  | reset => exact ⟨fun _ => trivial, fun _ => sound_of_abandoned rfl⟩
  | addFragment packet =>
      rcases f.addFragment_cases packet with
        ⟨empty, closed, result⟩ | ⟨empty, opens, result⟩ | ⟨started, overrun, result⟩
          | ⟨started, room, result⟩
      · simp only [Respects, empty, if_true]
        exact iff_of_true (sound_of_abandoned result) (fun opens => absurd opens closed)
      · rw [sound_first_iff empty rfl rfl result, firstLength (sized empty), Nat.sub_le_iff_le_add]
        simp only [Respects, empty, if_true]
        exact ⟨fun fits _ => fits, fun fits => fits opens⟩
      · simp only [Respects, started, if_false]
        exact iff_of_true (sound_of_abandoned result) (Or.inr overrun)
      · rw [bounded.sound_next_iff started room result]
        simp only [Respects, started, if_false]
        exact ⟨Or.inl, fun fits => fits.resolve_right (Nat.not_lt.mpr room)⟩

/-- A run from a bounded sequence is sound at every call exactly when every fragment
respects the declared total, by induction on the calls: soundness of one call hands its
bounds to the next.
-/
theorem Bounded.steps_sound_iff {f : EQPacketFragmentSequence} (bounded : f.Bounded)
    {calls : List Call} (sized : ∀ step ∈ f.steps calls, step.1.Sized step.2)
    : (∀ step ∈ f.steps calls, step.1.Sound step.2)
      ↔ ∀ step ∈ f.steps calls, step.1.Respects step.2 := by
  induction calls generalizing f with
  | nil => simp [steps]
  | cons c rest ih =>
      simp only [steps, List.forall_mem_cons] at sized ⊢
      have head := bounded.sound_iff sized.1
      constructor
      · rintro ⟨sound, later⟩
        exact ⟨head.mp sound, (ih sound.bounded sized.2).mp later⟩
      · rintro ⟨respects, later⟩
        have sound := head.mpr respects
        exact ⟨sound, (ih sound.bounded sized.2).mpr later⟩

/-- Over every run of a new sequence, all calls keep the data within the declared total, copy
inside the allocation and abandon what exceeds the total, if and only if no fragment both
exceeds the declared total and escapes the source's check against the allocation.
-/
theorem fragmentRun_sound_iff (calls : List Call)
    (sized : ∀ step ∈ fresh.steps calls, step.1.Sized step.2)
    : (∀ step ∈ fresh.steps calls, step.1.Sound step.2)
      ↔ ∀ step ∈ fresh.steps calls, step.1.Respects step.2 :=
  bounded_fresh.steps_sound_iff sized

/-- A first fragment declaring a total of two bytes and bringing three. -/
def overlongFirst : EQProtocolPacket :=
  EQProtocolPacket.ofSubpacket [0x00, 0x0d, 0, 0, 0, 0, 0, 2, 0x11, 0x22, 0x33] 11

/-- A first fragment declaring a total of two bytes and bringing them both. -/
def wholeFirst : EQProtocolPacket :=
  EQProtocolPacket.ofSubpacket [0x00, 0x0d, 0, 0, 0, 0, 0, 2, 0x11, 0x22] 10

theorem fragmentRun_wholeFirst
    : (∀ step ∈ fresh.steps [.addFragment wholeFirst], step.1.Sized step.2)
      ∧ ∀ step ∈ fresh.steps [.addFragment wholeFirst], step.1.Sound step.2 := by
  have sized : ∀ step ∈ fresh.steps [.addFragment wholeFirst], step.1.Sized step.2 := by
    simp only [steps, List.mem_singleton, forall_eq, Sized]
    decide
  refine ⟨sized, (fragmentRun_sound_iff [.addFragment wholeFirst] sized).mpr ?_⟩
  simp only [steps, List.mem_singleton, forall_eq, Respects]
  decide

/-- One byte over the declared total is kept: the run is sized as the wire requires, and its
only call is not sound.
-/
theorem fragmentRun_overlongFirst
    : (∀ step ∈ fresh.steps [.addFragment overlongFirst], step.1.Sized step.2)
      ∧ ¬ ∀ step ∈ fresh.steps [.addFragment overlongFirst], step.1.Sound step.2 := by
  simp only [steps, List.mem_singleton, forall_eq]
  refine ⟨fun _ => by decide, ?_⟩
  intro sound
  exact absurd sound.bounded.data_le (by decide)

end EQPacketFragmentSequence
end Scry
