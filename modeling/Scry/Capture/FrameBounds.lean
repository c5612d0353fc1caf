import Scry.Capture.RemoteCapture

/-! The lengths of a frame on its way from a capture thread to the payload of its datagram: how
long it was on the wire, how much of it was captured, and what its IP header says.
-/

namespace Scry

/-- Memory from some address on. -/
abbrev Memory := Nat → UInt8

/-- Bytes in front of other memory. -/
def Memory.starting (data : Bytes) (behind : Memory) : Memory :=
  fun i => data[i]?.getD (behind i)

/-- A frame as a capture thread has it: what libpcap captured of one with its original length, and
the memory behind that, or the payload of a frame message.
-/
inductive CapturedFrame
  | pcap (captured : Bytes) (len : UInt32) (within : captured.length ≤ len.toNat)
      (behind : Memory) (tsMs : Int)
  | remote (payload : Bytes) (carries : SEQ_FRAME_PREFIX < payload.length) (tsMs : Int)

namespace CapturedFrame

/-- The bytes that were captured. -/
def captured : CapturedFrame → Bytes
  | pcap captured _ _ _ _ => captured
  | remote payload _ _ => payload.drop SEQ_FRAME_PREFIX

/-- How many bytes the thread copies from there, in `packetCallBack` or `enqueue`. -/
def copies : CapturedFrame → Nat
  | pcap _ len _ _ _ => len.toNat
  | remote payload _ _ => payload.length - SEQ_FRAME_PREFIX

/-- What the copy brings into the queue. -/
def cached : CapturedFrame → PacketCache
  | pcap captured len _ behind tsMs =>
      { data := List.ofFn fun i : Fin len.toNat => Memory.starting captured behind i, tsMs }
  | remote payload _ tsMs => { data := payload.drop SEQ_FRAME_PREFIX, tsMs }

end CapturedFrame

/-- `EQUDPIPPacketFormat`, with the places of the payload and the UDP header from the IP header
on.
-/
structure EQUDPIPPacketFormat where
  dataLength : UInt32
  udp : Nat
  rawpayload : Nat
  rawpayloadSize : UInt32

def sizeofEtherHeader : Nat := 14

def sizeofUdphdr : UInt32 := 8

/-- `EQUDPIPPacketFormat::init`. The length it is constructed with is not used for data that is
not its own.
-/
def EQUDPIPPacketFormat.init (data : Memory) : EQUDPIPPacketFormat :=
  let dataLength : UInt32 := .ofNat ((data 2).toNat * 256 + (data 3).toNat)
  let ipHeaderLength : UInt32 := .ofNat ((data 0).toNat % 16 * 4)
  { dataLength := dataLength
    udp := ipHeaderLength.toNat
    rawpayload := ipHeaderLength.toNat + sizeofUdphdr.toNat
    rawpayloadSize := dataLength - ipHeaderLength - sizeofUdphdr }

namespace CapturedFrame

/-- The packet that a turn of `processPackets` makes of a frame, in a buffer that held others
before. A size of zero is taken for the end of the queue.
-/
def dispatched (f : CapturedFrame) (buffer : Memory) : Option EQUDPIPPacketFormat :=
  if Capture.sizeOf f.cached = 0 then none
  else
    some (.init fun i => Memory.starting (Capture.copyOf f.cached) buffer (sizeofEtherHeader + i))

/-- The copies of a frame read no more than there is, and the payload lies inside of what
arrives of it in the buffer, with a length that was not wrapped.
-/
structure Bounded (f : CapturedFrame) (buffer : Memory) : Prop where
  captured : f.copies ≤ f.captured.length
  cached : (Capture.copyOf f.cached).length ≤ f.cached.data.length
  payload : ∀ p ∈ f.dispatched buffer,
    sizeofEtherHeader + p.rawpayload + p.rawpayloadSize.toNat ≤ (Capture.copyOf f.cached).length
    ∧ p.rawpayload + p.rawpayloadSize.toNat = p.dataLength.toNat

/-- The length that the IP header of a frame has for itself. -/
def headerLength (frame : Bytes) : Nat := (frame[14]?.getD 0).toNat % 16 * 4

/-- The length that it has for the datagram. -/
def totalLength (frame : Bytes) : Nat :=
  (frame[16]?.getD 0).toNat * 256 + (frame[17]?.getD 0).toNat

/-- A frame's headers fit into its total length, and that into the part of it that 16 bits
count.
-/
def Consistent (frame : Bytes) : Prop :=
  headerLength frame + 8 ≤ totalLength frame
  ∧ sizeofEtherHeader + totalLength frame ≤ frame.length % 65536

/-- A frame was captured whole, and its headers are consistent, unless its length is zero in 16
bits.
-/
def Sound (f : CapturedFrame) : Prop :=
  f.copies = f.captured.length
  ∧ (f.captured.length % 65536 = 0 ∨ Consistent f.captured)

variable {f : CapturedFrame} {buffer : Memory}

-----------------------------------------------------------------------------------------
-- The copies
-----------------------------------------------------------------------------------------

theorem captured_le_copies (f : CapturedFrame) : f.captured.length ≤ f.copies := by
  cases f with
  | pcap captured len within behind tsMs => exact within
  | remote payload carries tsMs => exact (List.length_drop).le

/-- What a session brings of a frame message is its frame. -/
theorem frame?_eq {e : RemoteCapture.Envelope} (type : e.type = SEQ_TYPE_FRAME)
    (carries : SEQ_FRAME_PREFIX < e.payload.length)
    : e.frame? = some (remote e.payload carries (rdU64 e.payload / 1000).toNat).cached :=
  if_pos ⟨type, carries⟩

/-- A frame that was captured whole is queued as it was captured. -/
theorem cached_of_whole (whole : f.copies = f.captured.length) : f.cached.data = f.captured := by
  cases f with
  | pcap captured len within behind tsMs =>
      refine List.ext_getElem (by rw [cached, List.length_ofFn]; exact whole) fun i inside here => ?_
      simp only [cached, List.getElem_ofFn, Memory.starting]
      exact congrArg (Option.getD · (behind i)) (List.getElem?_eq_getElem here)
  | remote payload carries tsMs => rfl

theorem copyOf_length (pc : PacketCache)
    : (Capture.copyOf pc).length = pc.data.length % 65536 := by
  rw [Capture.copyOf, List.length_take, UInt16.toNat_ofNat']
  exact Nat.min_eq_left (Nat.mod_le _ _)

/-- A size is zero where 16 bits of the length are. -/
theorem sizeOf_eq_zero_iff {pc : PacketCache}
    : Capture.sizeOf pc = 0 ↔ pc.data.length % 65536 = 0 := by
  rw [Capture.sizeOf, ← UInt16.toNat_ofNat', ← UInt16.toNat_zero, UInt16.toNat_inj]
  exact ⟨fun zero => congrArg Int16.toUInt16 zero, fun zero => zero ▸ rfl⟩

-----------------------------------------------------------------------------------------
-- The payload
-----------------------------------------------------------------------------------------

/-- The lengths that an IP header at some bytes has. -/
def headerAt (data : Memory) : Nat := (data 0).toNat % 16 * 4
def totalAt (data : Memory) : Nat := (data 2).toNat * 256 + (data 3).toNat

/-- What is read of the IP header, and whether the payload's length was wrapped. -/
theorem init_lengths (data : Memory)
    : let p := EQUDPIPPacketFormat.init data
      p.dataLength.toNat = totalAt data ∧ p.rawpayload = headerAt data + 8
        ∧ (p.rawpayload + p.rawpayloadSize.toNat = p.dataLength.toNat
          ↔ headerAt data + 8 ≤ totalAt data) := by
  have high := (data 2).toNat_lt
  have low := (data 3).toNat_lt
  have total : (UInt32.ofNat ((data 2).toNat * 256 + (data 3).toNat)).toNat
      = (data 2).toNat * 256 + (data 3).toNat :=
    UInt32.toNat_ofNat_of_lt' (by rw [UInt32.size]; omega)
  have header : (UInt32.ofNat ((data 0).toNat % 16 * 4)).toNat = (data 0).toNat % 16 * 4 :=
    UInt32.toNat_ofNat_of_lt' (by rw [UInt32.size]; omega)
  have udp : sizeofUdphdr.toNat = 8 := rfl
  refine ⟨total, ?_, ?_⟩
  · simp only [EQUDPIPPacketFormat.init, headerAt, header, udp]
  · simp only [EQUDPIPPacketFormat.init, headerAt, totalAt, UInt32.toNat_sub, header, total, udp]
    omega

/-- The fields of a frame's header are found in the buffer if they arrive there. -/
theorem field_of_arrived {frame : Bytes} {i n : Nat} (arrived : i < n) (within : n ≤ frame.length)
    (buffer : Memory)
    : Memory.starting (frame.take n) buffer i = frame[i]?.getD 0 := by
  have inside : i < (frame.take n).length := by
    rw [List.length_take]
    omega
  have here : i < frame.length := by omega
  rw [Memory.starting, List.getElem?_eq_getElem inside, List.getElem?_eq_getElem here,
    List.getElem_take]
  rfl

/-- The payload of a frame that was captured whole lies inside, without a wrapped length, exactly
where the headers are consistent. Where the headers did not arrive, they cannot be.
-/
theorem payload_iff (frame : Bytes) (buffer : Memory)
    : (let n := frame.length % 65536
      let p := EQUDPIPPacketFormat.init fun i =>
        Memory.starting (frame.take n) buffer (sizeofEtherHeader + i)
      sizeofEtherHeader + p.rawpayload + p.rawpayloadSize.toNat ≤ n
        ∧ p.rawpayload + p.rawpayloadSize.toNat = p.dataLength.toNat)
      ↔ Consistent frame := by
  have within := Nat.mod_le frame.length 65536
  have ether : sizeofEtherHeader = 14 := rfl
  dsimp only
  generalize data_eq : (fun i => Memory.starting (frame.take (frame.length % 65536)) buffer
    (sizeofEtherHeader + i)) = data
  obtain ⟨total, header, unwrapped⟩ := init_lengths data
  have fields (long : 18 ≤ frame.length % 65536)
      : headerAt data = headerLength frame ∧ totalAt data = totalLength frame := by
    have field (i : Nat) (isField : i < 4) : data i = frame[sizeofEtherHeader + i]?.getD 0 := by
      rw [← data_eq]
      exact field_of_arrived (by omega) within buffer
    rw [headerAt, totalAt, field 0 (by decide), field 2 (by decide), field 3 (by decide)]
    exact ⟨rfl, rfl⟩
  rw [Consistent, total]
  constructor
  · rintro ⟨inside, whole⟩
    have fits := unwrapped.mp (whole.trans total.symm)
    obtain ⟨sameHeader, sameTotal⟩ := fields (by omega)
    omega
  · rintro ⟨fits, inside⟩
    obtain ⟨sameHeader, sameTotal⟩ := fields (by omega)
    have whole := unwrapped.mpr (by omega)
    omega

/-- A frame's copies and its payload stay inside of what was captured exactly where it was
captured whole and its headers are consistent, or its length is taken for none.
-/
theorem bounded_iff (f : CapturedFrame) (buffer : Memory) : f.Bounded buffer ↔ f.Sound := by
  have atLeast := captured_le_copies f
  constructor
  · rintro ⟨captured, -, payload⟩
    have whole := Nat.le_antisymm captured atLeast
    refine ⟨whole, or_iff_not_imp_left.mpr fun nonzero => ?_⟩
    have size : ¬ Capture.sizeOf f.cached = 0 := by
      rwa [sizeOf_eq_zero_iff, cached_of_whole whole]
    rw [dispatched, if_neg size] at payload
    have payload := payload _ rfl
    rw [copyOf_length, Capture.copyOf, UInt16.toNat_ofNat', cached_of_whole whole] at payload
    exact (payload_iff f.captured buffer).mp payload
  · rintro ⟨whole, sound⟩
    refine ⟨whole.le, ?_, fun p isDispatched => ?_⟩
    · rw [copyOf_length]
      exact Nat.mod_le _ _
    · rw [dispatched] at isDispatched
      split at isDispatched
      · cases isDispatched
      next size =>
        obtain rfl := Option.some.inj isDispatched
        rw [sizeOf_eq_zero_iff, cached_of_whole whole] at size
        rw [copyOf_length, Capture.copyOf, UInt16.toNat_ofNat', cached_of_whole whole]
        exact (payload_iff f.captured buffer).mpr (sound.resolve_left size)

/-- Three bytes captured of a hundred. -/
theorem not_bounded
    : ¬ (CapturedFrame.pcap [0, 0, 0] 100 (by decide) (fun _ => 0) 0).Bounded fun _ => 0 := by
  rintro ⟨captured, -, -⟩
  exact absurd captured (by decide)

end CapturedFrame

end Scry
