import Scry.Library.LittleEndian
import Scry.Wire.Bytes

/-! Packet recordings.
A recorder lays out each packet with its header in a buffer that it writes to the file when the
next one does not fit; playback reads the file back through a buffer of its own, moving what a
refill cut off to the front. Integers are in the order of the machine that records and plays.
-/

namespace Scry

open LittleEndian

/-- What `malloc` returns for a size that is an `int`, with whatever the memory held. -/
structure Block where
  bytes : Bytes
  isInt : bytes.length < 2 ^ 31

/-- An `int` stored in memory. -/
def intBytes (x : Int32) : Bytes := encode 4 x.toBitVec.toNat

/-- A `long` or a `time_t` stored in memory. -/
def longBytes (x : Int64) : Bytes := encode 8 x.toBitVec.toNat

/-- The `int` at an address. -/
def intAt (data : Bytes) (address : Nat) : Int32 :=
  Int32.ofBitVec (BitVec.ofNat 32 (decode (readBytes (data.drop address) 4)))

/-- The `long` or `time_t` at an address. -/
def longAt (data : Bytes) (address : Nat) : Int64 :=
  Int64.ofBitVec (BitVec.ofNat 64 (decode (readBytes (data.drop address) 8)))

/-- A packet as the callers of `Record` and `Playback` see it. -/
structure VPacket.Packet where
  data : Bytes
  time : Int64
  version : Int64
  deriving DecidableEq

/-- `VPacket`: a recorder, or a player. The file is what a recorder has written and what a
player has not read yet.
-/
structure VPacket where
  cBuffer : Bytes
  nBufIndex : Nat
  nBufBytes : Nat
  nBufSize : Nat
  nPlaybackSpeed : Int32
  lStartTime : Int64
  nSequence : Int64
  bEndofFile : Bool
  lBytesIO : Nat
  bFlushPacket : Bool
  nLastPacketTime : Int32
  nFirstPacketTime : Int32
  nLastTime : Int32
  nCompressTime : Int32
  bRecord : Bool
  written : Bytes
  unread : Bytes

namespace VPacket

/-- The constructor on a file that can be opened. -/
def opened (block : Block) (file : Bytes) (nPBSpeed : Int32) (bRecord : Bool) : VPacket where
  cBuffer := block.bytes
  nBufIndex := 0
  nBufBytes := 0
  nBufSize := block.bytes.length
  nPlaybackSpeed := nPBSpeed
  lStartTime := 0
  nSequence := 0
  bEndofFile := false
  lBytesIO := 0
  bFlushPacket := false
  nLastPacketTime := 0
  nFirstPacketTime := 0
  nLastTime := 0
  nCompressTime := 0
  bRecord := bRecord
  written := []
  unread := file

/-- `sizeof(struct packet_struct)`. Its fields are at 0 (`size`, with four bytes of padding
after it), 8 (`time`), 16 (`version`), 24 (`ms`) and 32 (`sequence`).
-/
def headersize : Nat := 40

/-- `writeBuffer`, with the number of bytes written. -/
def writeBuffer (v : VPacket) : Nat × VPacket :=
  if !v.bRecord then (0, v)
  else
    let size := v.nBufIndex
    (size, { v with
      written := v.written ++ readBytes v.cBuffer size
      nBufIndex := 0
      lBytesIO := v.lBytesIO + size })

/-- `Flush`. -/
def Flush (v : VPacket) : VPacket := if v.bRecord then v.writeBuffer.2 else v

/-- `setFlushPacket`. -/
def setFlushPacket (v : VPacket) (inset : Bool) : VPacket := { v with bFlushPacket := inset }

/-- The part of `Record` that stores a packet. The two readings of the clock are arguments. -/
def store (v : VPacket) (packet : Packet) (mTime : Nat → Int32) : VPacket :=
  let lStartTime := if v.lStartTime = 0 then (mTime 0).toInt64 else v.lStartTime
  let at_ := v.nBufIndex
  let size := packet.data.length + headersize
  let memory := overwrite v.cBuffer at_ (intBytes (Int32.ofNat size))
  let memory := overwrite memory (at_ + 24) (longBytes ((mTime 1).toInt64 - lStartTime))
  let memory := overwrite memory (at_ + 16) (longBytes packet.version)
  let memory := overwrite memory (at_ + 32) (longBytes v.nSequence)
  let memory := overwrite memory (at_ + 8) (longBytes packet.time)
  let memory := overwrite memory (at_ + headersize) packet.data
  { v with
    lStartTime := lStartTime
    cBuffer := memory
    nBufIndex := at_ + headersize + packet.data.length
    nSequence := v.nSequence + 1 }

/-- `Record`, with the size it returns. -/
def Record (v : VPacket) (packet : Packet) (mTime : Nat → Int32) : Nat × VPacket :=
  let bufsize := packet.data.length + headersize
  if v.nBufSize < bufsize then (0, v)
  else
    let full := v.nBufSize - v.nBufIndex < bufsize
    let (size, v) := if full then v.writeBuffer else (0, v)
    if full ∧ size = 0 then (0, v)
    else if v.nBufSize - v.nBufIndex < bufsize then (0, v)
    else
      let v := v.store packet mTime
      (packet.data.length, if v.bFlushPacket then v.writeBuffer.2 else v)

/-- `fillBuffer`, with the number of bytes read. A regular file is read to its end or until
the request is met.
-/
def fillBuffer (v : VPacket) : Nat × VPacket :=
  if v.bEndofFile then (0, v)
  else
    let room := v.nBufSize - v.nBufBytes
    let memory := overwrite v.cBuffer 0 (readBytes (v.cBuffer.drop v.nBufIndex) v.nBufBytes)
    let got := v.unread.take room
    (got.length, { v with
      cBuffer := overwrite memory v.nBufBytes got
      nBufIndex := 0
      unread := v.unread.drop room
      bEndofFile := decide (got.length ≠ room)
      nBufBytes := v.nBufBytes + got.length
      lBytesIO := v.lBytesIO + got.length })

/-- The timers that `Playback` starts at the first packet, or after the speed was set. -/
def startTimers (v : VPacket) (ms : Int64) (mTime : Nat → Int32) : VPacket :=
  let unset := v.nFirstPacketTime = 0 ∨ v.nLastPacketTime = 0
  let nLastPacketTime := if unset then ms.toInt32 else v.nLastPacketTime
  { v with
    nLastPacketTime := nLastPacketTime
    nFirstPacketTime := if unset then ms.toInt32 else v.nFirstPacketTime
    lStartTime :=
      if v.lStartTime = 0 then (mTime 0 + nLastPacketTime).toInt64 else v.lStartTime
    nLastTime := if v.nLastTime = 0 then mTime 1 else v.nLastTime }

/-- Whether a packet's time has not come yet. -/
def tooEarly (v : VPacket) (ms : Int64) (mTime : Nat → Int32) : Bool :=
  let pktDelta := (ms - v.nLastPacketTime.toInt64).toInt32
  let delta := mTime 2 - v.nLastTime
  v.nPlaybackSpeed ≠ 0 ∧ pktDelta / v.nPlaybackSpeed > delta
    ∧ ¬(v.nCompressTime ≠ 0 ∧ pktDelta > v.nCompressTime)

/-- The part of `Playback` from the point where a whole packet is in the buffer. -/
def handOut (v : VPacket) (packet : Nat) (bufsize : Nat) (mTime : Nat → Int32)
    : Option Packet × VPacket :=
  let ms := longAt v.cBuffer (packet + 24)
  let v := v.startTimers ms mTime
  if v.tooEarly ms mTime then (none, v)
  else
    let packetSize := (intAt v.cBuffer packet).toInt
    if packetSize < headersize then (none, { v with bEndofFile := true })
    else
      let size := packetSize.toNat - headersize
      let v := { v with nLastPacketTime := ms.toInt32, nLastTime := mTime 3 }
      if bufsize < size then (none, v)
      else
        (some
          { data := readBytes (v.cBuffer.drop (packet + headersize)) size
            time := longAt v.cBuffer (packet + 8)
            version := longAt v.cBuffer (packet + 16) },
          { v with
            nBufIndex := v.nBufIndex + (size + headersize)
            nBufBytes := v.nBufBytes - (size + headersize)
            nSequence := v.nSequence + 1 })

/-- `Playback` into a buffer of `bufsize`: the packet, whose size is what the source returns,
or nothing where the source returns zero.
-/
def Playback (v : VPacket) (bufsize : Nat) (mTime : Nat → Int32) : Option Packet × VPacket :=
  if v.nPlaybackSpeed < 0 then (none, v)
  else
    let v := if v.nBufBytes ≤ headersize then v.fillBuffer.2 else v
    if v.nBufBytes ≤ headersize then (none, v)
    else
      let packet := v.nBufIndex
      let (packet, v) :=
        if (v.nBufBytes : Int) < (intAt v.cBuffer packet).toInt then
          -- a refill that reads nothing leaves the pointer where it was
          let (got, v) := v.fillBuffer
          (if got = 0 then packet else v.nBufIndex, v)
        else (packet, v)
      if (v.nBufBytes : Int) < (intAt v.cBuffer packet).toInt then (none, v)
      else v.handOut packet bufsize mTime

/-- `endOfData`. -/
def endOfData (v : VPacket) : Bool := v.bEndofFile

/-- What a recorder is told to do. -/
inductive RecordOp
  | record (packet : Packet) (mTime : Nat → Int32)
  | flush
  | setFlushPacket (inset : Bool)

/-- A recorder's run. -/
def recordAll (v : VPacket) : List RecordOp → VPacket
  | [] => v
  | .record packet mTime :: rest => (v.Record packet mTime).2.recordAll rest
  | .flush :: rest => v.Flush.recordAll rest
  | .setFlushPacket inset :: rest => (v.setFlushPacket inset).recordAll rest

/-- The packets a recorder is given. -/
def packetsOf : List RecordOp → List Packet
  | [] => []
  | .record packet _ :: rest => packet :: packetsOf rest
  | .flush :: rest => packetsOf rest
  | .setFlushPacket _ :: rest => packetsOf rest

/-- One call of `Playback`: the caller's buffer and the clock. -/
structure PlaybackCall where
  bufsize : Nat
  mTime : Nat → Int32

/-- Successive calls of `Playback`: what each returned, and the player after them. -/
def playAll (v : VPacket) : List PlaybackCall → List (Option Packet) × VPacket
  | [] => ([], v)
  | call :: rest =>
      let (got, v) := v.Playback call.bufsize call.mTime
      let (more, v) := v.playAll rest
      (got :: more, v)

-----------------------------------------------------------------------------------------
-- Records in memory
-----------------------------------------------------------------------------------------

/-- A packet as it lies in memory. The padding is what the memory held before. -/
structure Entry where
  packet : Packet
  pad : Bytes
  ms : Int64
  sequence : Int64
  padded : pad.length = 4

namespace Entry

/-- `sizeof(struct packet_struct)` and the data. -/
def size (e : Entry) : Nat := e.packet.data.length + headersize

def bytes (e : Entry) : Bytes :=
  intBytes (Int32.ofNat e.size) ++ e.pad ++ longBytes e.packet.time
    ++ longBytes e.packet.version ++ longBytes e.ms ++ longBytes e.sequence ++ e.packet.data

end Entry

@[simp]
theorem length_intBytes (x : Int32) : (intBytes x).length = 4 := length_encode _ _

@[simp]
theorem length_longBytes (x : Int64) : (longBytes x).length = 8 := length_encode _ _

@[simp]
theorem Entry.length_bytes (e : Entry) : e.bytes.length = e.size := by
  simp only [Entry.bytes, Entry.size, headersize, List.length_append, length_intBytes,
    length_longBytes, e.padded]
  omega

/-- An `int` is read back where it was stored. -/
theorem intAt_of_drop {data rest : Bytes} {address : Nat} {x : Int32}
    (stored : data.drop address = intBytes x ++ rest)
    : intAt data address = x := by
  have read : readBytes (data.drop address) 4 = intBytes x := by
    rw [stored, ← length_intBytes x, readBytes_append]
  rw [intAt, read, intBytes, ofNat_decode_encode (by decide), Int32.ofBitVec_toBitVec]

/-- A `long` is read back where it was stored. -/
theorem longAt_of_drop {data rest : Bytes} {address : Nat} {x : Int64}
    (stored : data.drop address = longBytes x ++ rest)
    : longAt data address = x := by
  have read : readBytes (data.drop address) 8 = longBytes x := by
    rw [stored, ← length_longBytes x, readBytes_append]
  rw [longAt, read, longBytes, ofNat_decode_encode (by decide), Int64.ofBitVec_toBitVec]

/-- Where an entry lies in memory, its fields and its data are at their offsets. -/
structure Entry.LiesAt (e : Entry) (data : Bytes) (address : Nat) : Prop where
  size : (intAt data address).toInt = e.size
  time : longAt data (address + 8) = e.packet.time
  version : longAt data (address + 16) = e.packet.version
  ms : longAt data (address + 24) = e.ms
  data : readBytes (data.drop (address + headersize)) e.packet.data.length = e.packet.data

/-- A copy over bytes of its own length leaves what lies after them. -/
theorem overwrite_front {mid rest new : Bytes} (same : mid.length = new.length)
    : overwrite (mid ++ rest) 0 new = new ++ rest := by
  rw [overwrite, Nat.zero_add, ← same, List.drop_left, readBytes_of_le (Nat.zero_le _),
    List.take_zero, List.nil_append]

/-- A copy behind some bytes leaves them. -/
theorem overwrite_behind {front rest new : Bytes} {address : Nat}
    (behind : front.length ≤ address)
    : overwrite (front ++ rest) address new
      = front ++ overwrite rest (address - front.length) new := by
  have past : front.drop (address + new.length) = [] :=
    List.drop_eq_nil_of_le (Nat.le_add_right_of_le behind)
  simp only [overwrite, readBytes, List.drop_append, List.take_append, List.length_append, past,
    List.take_of_length_le behind, List.append_assoc, List.nil_append, Nat.sub_add_eq,
    Nat.sub_add_comm behind]

/-- Memory with enough bytes is cut into pieces of given lengths, by induction on these. -/
theorem exists_pieces (lengths : List Nat) (data : Bytes) (room : lengths.sum ≤ data.length)
    : ∃ (pieces : List Bytes) (rest : Bytes),
      data = pieces.flatten ++ rest ∧ pieces.map List.length = lengths := by
  induction lengths generalizing data with
  | nil => exact ⟨[], data, rfl, rfl⟩
  | cons n lengths ih =>
      rw [List.sum_cons] at room
      obtain ⟨pieces, rest, cut, same⟩ :=
        ih (data.drop n) (by rw [List.length_drop]; omega)
      refine ⟨data.take n :: pieces, rest, ?_, ?_⟩
      · rw [List.flatten_cons, List.append_assoc, ← cut, List.take_append_drop]
      · rw [List.map_cons, same, List.length_take, Nat.min_eq_left (by omega)]

/-- The first `int` of a record gives its size, also when the rest of it is cut off. -/
theorem Entry.size_at {e : Entry} {data front rest : Bytes} {address : Nat}
    (isInt : e.size < 2 ^ 31) (lies : data.drop address = front ++ rest)
    (first : intBytes (Int32.ofNat e.size) <+: front)
    : (intAt data address).toInt = e.size := by
  obtain ⟨tail, rfl⟩ := first
  rw [List.append_assoc] at lies
  rw [intAt_of_drop lies, Int32.toInt_ofNat_of_lt isInt]

/-- What follows a field in memory. -/
theorem drop_next {data field rest : Bytes} {address width : Nat}
    (here : data.drop address = field ++ rest) (long : field.length = width)
    : data.drop (address + width) = rest := by
  rw [← List.drop_drop, here, ← long, List.drop_left]

theorem Entry.liesAt {e : Entry} {data rest : Bytes} {address : Nat}
    (isInt : e.size < 2 ^ 31) (lies : data.drop address = e.bytes ++ rest)
    : e.LiesAt data address := by
  have wide : (intBytes (Int32.ofNat e.size) ++ e.pad).length = 8 := by
    rw [List.length_append, length_intBytes, e.padded]
  simp only [bytes, List.append_assoc] at lies
  rw [← List.append_assoc] at lies
  have time := drop_next lies wide
  have version := drop_next time (length_longBytes _)
  have ms := drop_next version (length_longBytes _)
  have sequence := drop_next ms (length_longBytes _)
  have body := drop_next sequence (length_longBytes _)
  refine ⟨e.size_at isInt lies ?_, longAt_of_drop time, longAt_of_drop version,
    longAt_of_drop ms, ?_⟩
  · exact List.prefix_append _ _
  · rw [show address + headersize = address + 8 + 8 + 8 + 8 + 8 by rfl, body, readBytes_append]

-----------------------------------------------------------------------------------------
-- Recording
-----------------------------------------------------------------------------------------

/-- Storing a packet where there is room appends its entry to what the buffer holds. -/
theorem store_entry {v : VPacket} {packet : Packet} (mTime : Nat → Int32)
    (room : v.nBufIndex + (packet.data.length + headersize) ≤ v.cBuffer.length)
    : ∃ e : Entry, e.packet = packet
      ∧ (v.store packet mTime).cBuffer.length = v.cBuffer.length
      ∧ (v.store packet mTime).cBuffer.take (v.nBufIndex + e.size)
        = v.cBuffer.take v.nBufIndex ++ e.bytes := by
  have pieces := exists_pieces [v.nBufIndex, 4, 4, 8, 8, 8, 8, packet.data.length] v.cBuffer
    (by simp only [headersize, List.sum_cons, List.sum_nil] at room ⊢; omega)
  obtain ⟨_, rest, whole, lengths⟩ := pieces
  simp only [List.map_eq_cons_iff, List.map_eq_nil_iff] at lengths
  obtain ⟨front, _, rfl, at_, size, _, rfl, size4, pad, _, rfl, pad4, time, _, rfl, time8,
    version, _, rfl, version8, ms, _, rfl, ms8, sequence, _, rfl, sequence8, body, _, rfl,
    length, rfl⟩ := lengths
  simp only [List.flatten_cons, List.flatten_nil, List.append_nil, List.append_assoc] at whole
  let e : Entry := ⟨packet, pad, (mTime 1).toInt64
    - (if v.lStartTime = 0 then (mTime 0).toInt64 else v.lStartTime), v.nSequence, pad4⟩
  have stored : (v.store packet mTime).cBuffer = front ++ (e.bytes ++ rest) := by
    simp only [store, whole]
    simp only [overwrite_behind, ← at_, headersize, Nat.add_sub_cancel_left, Nat.le_add_right,
      Nat.le_refl, Nat.sub_self]
    simp [overwrite_behind, overwrite_front, size4, pad4, time8, version8, ms8, sequence8, length,
      Entry.bytes, Entry.size, e, headersize]
  refine ⟨e, rfl, ?_, ?_⟩
  · rw [stored, whole]
    simp only [List.length_append, Entry.length_bytes, Entry.size, headersize, e, size4, pad4,
      time8, version8, ms8, sequence8, length]
    omega
  · rw [stored, whole, ← at_, List.take_left, ← e.length_bytes, ← List.append_assoc,
      ← List.length_append, List.take_left]

/-- A recorder with a buffer of `n` bytes that has been given these packets: file and buffer
hold their entries one after another.
-/
structure Recorded (n : Nat) (packets : List Packet) (v : VPacket) : Prop where
  recording : v.bRecord = true
  size : v.nBufSize = n
  memory : v.cBuffer.length = n
  inside : v.nBufIndex ≤ n
  entries : ∃ entries : List Entry, entries.map Entry.packet = packets
    ∧ v.written ++ v.cBuffer.take v.nBufIndex = entries.flatMap Entry.bytes

theorem opened_recorded (block : Block) (file : Bytes) (nPBSpeed : Int32)
    : (opened block file nPBSpeed true).Recorded block.bytes.length [] where
  recording := rfl
  size := rfl
  memory := rfl
  inside := Nat.zero_le _
  entries := ⟨[], rfl, rfl⟩

section Recording

variable {v : VPacket} {n : Nat} {packets : List Packet}

/-- Writing the buffer out moves the entries from the buffer to the file. -/
theorem Recorded.writeBuffer (r : v.Recorded n packets)
    : v.writeBuffer.1 = v.nBufIndex ∧ v.writeBuffer.2.nBufIndex = 0
      ∧ v.writeBuffer.2.Recorded n packets := by
  obtain ⟨entries, same, holds⟩ := r.entries
  have whole : readBytes v.cBuffer v.nBufIndex = v.cBuffer.take v.nBufIndex :=
    readBytes_of_le (by rw [r.memory]; exact r.inside)
  rw [VPacket.writeBuffer, r.recording]
  refine ⟨rfl, rfl, rfl, r.size, r.memory, Nat.zero_le _, entries, same, ?_⟩
  simp only [Bool.not_true, Bool.false_eq_true, if_false, whole, List.take_zero,
    List.append_nil, holds]

theorem Recorded.flush (r : v.Recorded n packets) : v.Flush.Recorded n packets := by
  rw [Flush, if_pos r.recording]
  exact r.writeBuffer.2.2

theorem Recorded.setFlushPacket (r : v.Recorded n packets) (inset : Bool)
    : (v.setFlushPacket inset).Recorded n packets :=
  ⟨r.recording, r.size, r.memory, r.inside, r.entries⟩

theorem Recorded.store (r : v.Recorded n packets) {packet : Packet}
    (room : v.nBufIndex + (packet.data.length + headersize) ≤ n) (mTime : Nat → Int32)
    : (v.store packet mTime).Recorded n (packets ++ [packet]) := by
  obtain ⟨entries, same, holds⟩ := r.entries
  obtain ⟨e, isPacket, memory, stored⟩ := store_entry mTime (v := v) (r.memory ▸ room)
  have index : (v.store packet mTime).nBufIndex = v.nBufIndex + e.size := by
    simp only [VPacket.store, Entry.size, isPacket]
    omega
  have written : (v.store packet mTime).written = v.written := by
    simp only [VPacket.store]
  have recording : (v.store packet mTime).bRecord = true := by
    simp only [VPacket.store, r.recording]
  have size : (v.store packet mTime).nBufSize = n := by
    simp only [VPacket.store, r.size]
  refine ⟨recording, size, memory.trans r.memory, ?_, entries ++ [e], ?_, ?_⟩
  · rw [index, Entry.size, isPacket]
    exact room
  · rw [List.map_append, same, List.map_singleton, isPacket]
  · rw [index, stored, written, List.flatMap_append, ← holds, List.flatMap_singleton,
      List.append_assoc]

/-- `Record` accepts every packet that fits in the buffer with its header. -/
theorem Recorded.record (r : v.Recorded n packets) {packet : Packet}
    (fits : packet.data.length + headersize ≤ n) (mTime : Nat → Int32)
    : (v.Record packet mTime).1 = packet.data.length
      ∧ (v.Record packet mTime).2.Recorded n (packets ++ [packet]) := by
  have accepted {w : VPacket} (r : w.Recorded n packets)
      (room : w.nBufIndex + (packet.data.length + headersize) ≤ n)
      : (if (w.store packet mTime).bFlushPacket then (w.store packet mTime).writeBuffer.2
          else w.store packet mTime).Recorded n (packets ++ [packet]) := by
    have stored := r.store room mTime
    split
    · exact stored.writeBuffer.2.2
    · exact stored
  obtain ⟨wrote, emptied, written⟩ := r.writeBuffer
  rw [VPacket.Record, r.size, if_neg (Nat.not_lt.mpr fits)]
  by_cases full : n - v.nBufIndex < packet.data.length + headersize
  · have some : v.writeBuffer.1 ≠ 0 := by
      rw [wrote]
      omega
    have room : ¬ n - v.writeBuffer.2.nBufIndex < packet.data.length + headersize := by
      rw [emptied]
      omega
    simp only [full, if_true, some, and_false, if_false, written.size, room]
    exact ⟨trivial, accepted written (by omega)⟩
  · have inside := r.inside
    simp only [full, if_false, false_and, r.size]
    exact ⟨trivial, accepted r (by omega)⟩

/-- A recorder's run, by induction on what it is told. -/
theorem Recorded.recordAll (ops : List RecordOp) (r : v.Recorded n packets)
    (fits : ∀ packet ∈ packetsOf ops, packet.data.length + headersize ≤ n)
    : (v.recordAll ops).Recorded n (packets ++ packetsOf ops) := by
  induction ops generalizing v packets with
  | nil => simpa only [packetsOf, VPacket.recordAll, List.append_nil] using r
  | cons op rest ih =>
      cases op with
      | record packet mTime =>
          have first := (r.record (fits packet List.mem_cons_self) mTime).2
          have later := ih first fun p member => fits p (List.mem_cons_of_mem _ member)
          rw [List.append_assoc] at later
          exact later
      | flush => exact ih r.flush fits
      | setFlushPacket inset => exact ih (r.setFlushPacket inset) fits

end Recording

/-- The file of a recorder that was flushed last. -/
theorem Recorded.file {v : VPacket} {n : Nat} {packets : List Packet} (r : v.Recorded n packets)
    : ∃ entries : List Entry, entries.map Entry.packet = packets
      ∧ v.Flush.written = entries.flatMap Entry.bytes := by
  obtain ⟨entries, same, holds⟩ := r.flush.entries
  have emptied : v.Flush.nBufIndex = 0 := by
    rw [Flush, if_pos r.recording]
    exact r.writeBuffer.2.1
  rw [emptied, List.take_zero, List.append_nil] at holds
  exact ⟨entries, same, holds⟩

-----------------------------------------------------------------------------------------
-- Playback
-----------------------------------------------------------------------------------------

/-- The bytes in the buffer that were not played yet. -/
def window (v : VPacket) : Bytes := (v.cBuffer.drop v.nBufIndex).take v.nBufBytes

/-- A player at full speed with a buffer of `n` bytes that has `pending` still to play, in the
buffer or in the file. The end of the file is never seen before it was read out.
-/
structure Playing (n : Nat) (pending : Bytes) (v : VPacket) : Prop where
  speed : v.nPlaybackSpeed = 0
  size : v.nBufSize = n
  memory : v.cBuffer.length = n
  inside : v.nBufIndex + v.nBufBytes ≤ n
  pending : v.window ++ v.unread = pending
  ended : v.bEndofFile = true → v.unread = []

theorem opened_playing (block : Block) (file : Bytes)
    : (opened block file 0 false).Playing block.bytes.length file where
  speed := rfl
  size := rfl
  memory := rfl
  inside := Nat.zero_le _
  pending := by simp [window, opened]
  ended := nofun

section Playing

variable {v : VPacket} {n : Nat} {pending : Bytes}

theorem Playing.length_window (p : v.Playing n pending) : v.window.length = v.nBufBytes := by
  have inside := p.inside
  simp only [window, List.length_take, List.length_drop, p.memory]
  omega

/-- What is in the buffer starts at the index. -/
theorem Playing.drop_index (_p : v.Playing n pending)
    : v.cBuffer.drop v.nBufIndex = v.window ++ v.cBuffer.drop (v.nBufIndex + v.nBufBytes) := by
  rw [window, ← List.drop_drop, List.take_append_drop]

/-- What the buffer holds after a refill, and what stays behind it. -/
theorem Playing.refilled (p : v.Playing n pending) (got : Bytes)
    (room : v.nBufBytes + got.length ≤ n)
    : overwrite
        (overwrite v.cBuffer 0 (readBytes (v.cBuffer.drop v.nBufIndex) v.nBufBytes))
        v.nBufBytes got
      = v.window ++ (got ++ v.cBuffer.drop (v.nBufBytes + got.length)) := by
  have inside := p.inside
  have moved : readBytes (v.cBuffer.drop v.nBufIndex) v.nBufBytes = v.window :=
    readBytes_of_le (by rw [List.length_drop, p.memory]; omega)
  have length := p.length_window
  have front : overwrite v.cBuffer 0 v.window
      = v.window ++ v.cBuffer.drop v.nBufBytes := by
    have cut := List.take_append_drop v.nBufBytes v.cBuffer
    nth_rewrite 1 [← cut]
    apply overwrite_front
    rw [List.length_take, p.memory, length]
    omega
  have cut := List.take_append_drop got.length (v.cBuffer.drop v.nBufBytes)
  rw [moved, front, overwrite_behind length.le, length, Nat.sub_self, ← cut, overwrite_front,
    List.drop_drop]
  rw [List.length_take, List.length_drop, p.memory]
  omega

/-- A refill moves what is left to the front and reads on behind it, so that the bytes still to
play stay the same; after it the buffer is full or the file was read out.
-/
theorem Playing.fillBuffer (p : v.Playing n pending)
    : v.fillBuffer.2.Playing n pending
      ∧ (v.fillBuffer.2.unread = [] ∨ v.fillBuffer.2.nBufBytes = n)
      ∧ (v.fillBuffer.1 = 0 → v.unread = [] ∨ v.nBufBytes = n) := by
  have inside := p.inside
  rw [VPacket.fillBuffer]
  by_cases ended : v.bEndofFile = true
  · rw [if_pos ended]
    exact ⟨p, .inl (p.ended ended), fun _ => .inl (p.ended ended)⟩
  rw [if_neg ended, p.size]
  dsimp only
  generalize hgot : v.unread.take (n - v.nBufBytes) = got
  have length : got.length = min (n - v.nBufBytes) v.unread.length := by
    rw [← hgot, List.length_take]
  have whole : got ++ v.unread.drop (n - v.nBufBytes) = v.unread := by
    rw [← hgot, List.take_append_drop]
  have memory := p.refilled got (by omega)
  have window := p.length_window
  refine ⟨⟨p.speed, rfl, ?_, ?_, ?_, ?_⟩, ?_, ?_⟩
  · simp only [memory, List.length_append, List.length_drop, p.memory, window]
    omega
  · simp only [Nat.zero_add]
    omega
  · have first (rest : Bytes)
        : (v.window ++ (got ++ rest)).take (v.nBufBytes + got.length) = v.window ++ got := by
      rw [← List.append_assoc]
      exact List.take_left' (by rw [List.length_append, window])
    rw [VPacket.window]
    dsimp only
    rw [List.drop_zero, memory, first, List.append_assoc, whole]
    exact p.pending
  · intro short
    have short : got.length ≠ n - v.nBufBytes := of_decide_eq_true short
    dsimp only
    exact List.drop_eq_nil_of_le (by omega)
  · by_cases short : v.unread.length ≤ n - v.nBufBytes
    · exact .inl (List.drop_eq_nil_of_le short)
    · right
      omega
  · intro none
    by_cases empty : v.unread = []
    · exact .inl empty
    · have some := List.length_pos_iff.mpr empty
      omega

variable {e : Entry} {rest : Bytes}

/-- At full speed no packet is too early. -/
theorem tooEarly_fullSpeed {v : VPacket} (full : v.nPlaybackSpeed = 0) (ms : Int64)
    (mTime : Nat → Int32)
    : v.tooEarly ms mTime = false := by
  simp [tooEarly, full]

/-- A whole entry at the front of the buffer is handed out, whatever the clock says. -/
theorem Playing.handOut (p : v.Playing n (e.bytes ++ rest)) (isInt : e.size < 2 ^ 31)
    (whole : e.size ≤ v.nBufBytes) {bufsize : Nat} (enough : e.packet.data.length ≤ bufsize)
    (mTime : Nat → Int32)
    : (v.handOut v.nBufIndex bufsize mTime).1 = some e.packet
      ∧ (v.handOut v.nBufIndex bufsize mTime).2.Playing n rest := by
  obtain ⟨tail, front⟩ : e.bytes <+: v.window :=
    List.prefix_of_prefix_length_le ⟨rest, rfl⟩ ⟨v.unread, p.pending⟩
      (by rw [e.length_bytes, p.length_window]; exact whole)
  have lies := p.drop_index
  rw [← front, List.append_assoc] at lies
  have fields := e.liesAt isInt lies
  have onTime (ms : Int64) : (v.startTimers ms mTime).tooEarly ms mTime = false :=
    tooEarly_fullSpeed (v := v.startTimers ms mTime) p.speed ms mTime
  have size : e.size - headersize = e.packet.data.length := Nat.add_sub_cancel _ _
  have large : ¬ (e.size : Int) < headersize := by
    simp only [Entry.size]
    omega
  rw [VPacket.handOut]
  dsimp only
  rw [onTime]
  simp only [startTimers, Bool.false_eq_true, if_false, fields.size, large, Int.toNat_natCast, size,
    Nat.not_lt.mpr enough, fields.data, fields.time, fields.version, true_and]
  have inside := p.inside
  refine ⟨p.speed, p.size, p.memory, ?_, ?_, p.ended⟩
  · simp only [Entry.size] at whole ⊢
    omega
  · have later : (v.cBuffer.drop (v.nBufIndex + e.size)).take (v.nBufBytes - e.size) = tail := by
      rw [← List.drop_drop, lies, ← e.length_bytes, List.drop_left]
      apply List.take_left'
      rw [← p.length_window, ← front, List.length_append, Nat.add_sub_cancel_left]
    have same := p.pending
    rw [← front, List.append_assoc, List.append_cancel_left_eq] at same
    rw [← same, ← later]
    rfl

/-- The size of the first entry can be read as soon as its first four bytes are there. -/
theorem Playing.firstSize (p : v.Playing n (e.bytes ++ rest)) (isInt : e.size < 2 ^ 31)
    (some : headersize < v.nBufBytes)
    : (intAt v.cBuffer v.nBufIndex).toInt = e.size := by
  apply e.size_at isInt p.drop_index
  apply List.prefix_of_prefix_length_le _ ⟨v.unread, p.pending⟩
  · rw [length_intBytes, p.length_window]
    exact (by decide : 4 ≤ headersize).trans some.le
  · simp only [Entry.bytes, List.append_assoc]
    exact List.prefix_append _ _

/-- Once the buffer is full or the file was read out, an entry at the front is whole. -/
theorem Playing.whole (p : v.Playing n (e.bytes ++ rest)) (fits : e.size ≤ n)
    (full : v.unread = [] ∨ v.nBufBytes = n)
    : e.size ≤ v.nBufBytes := by
  rcases full with readOut | full
  · have pending := congrArg List.length p.pending
    simp only [readOut, List.append_nil, List.length_append, e.length_bytes,
      p.length_window] at pending
    omega
  · exact full ▸ fits

/-- `Playback` returns the first of the packets still to play, and the rest is still to play. -/
theorem Playing.playback_next (p : v.Playing n (e.bytes ++ rest)) (isInt : n < 2 ^ 31)
    (fits : e.size ≤ n) (nonempty : 0 < e.packet.data.length) {bufsize : Nat}
    (enough : e.packet.data.length ≤ bufsize) (mTime : Nat → Int32)
    : (v.Playback bufsize mTime).1 = some e.packet
      ∧ (v.Playback bufsize mTime).2.Playing n rest := by
  have small : e.size < 2 ^ 31 := fits.trans_lt isInt
  have header : headersize < e.size := Nat.lt_add_of_pos_left nonempty
  -- the first refill, when no more than a header is in the buffer
  obtain ⟨w, first, ready, some⟩ : ∃ w, (if v.nBufBytes ≤ headersize then v.fillBuffer.2 else v) = w
      ∧ w.Playing n (e.bytes ++ rest) ∧ headersize < w.nBufBytes := by
    by_cases little : v.nBufBytes ≤ headersize
    · have filled := p.fillBuffer
      refine ⟨_, if_pos little, filled.1, ?_⟩
      exact header.trans_le (filled.1.whole fits filled.2.1)
    · exact ⟨_, if_neg little, p, Nat.lt_of_not_le little⟩
  have running : ¬ v.nPlaybackSpeed < 0 := by
    rw [p.speed]
    decide
  rw [Playback, if_neg running, first]
  dsimp only
  rw [if_neg (Nat.not_le.mpr some), ready.firstSize small some]
  by_cases whole : e.size ≤ w.nBufBytes
  · have complete : ¬ (w.nBufBytes : Int) < e.size := by omega
    simp only [complete, if_false, ready.firstSize small some]
    exact ready.handOut small whole enough mTime
  · -- the second refill completes the entry, and reads something
    have filled := ready.fillBuffer
    have moved : w.fillBuffer.1 ≠ 0 := fun none => whole (ready.whole fits (filled.2.2 none))
    have whole' := filled.1.whole fits filled.2.1
    have cut : (w.nBufBytes : Int) < e.size := by omega
    have complete : ¬ (w.fillBuffer.2.nBufBytes : Int) < e.size := by omega
    simp only [cut, if_true, moved, if_false, filled.1.firstSize small (header.trans_le whole'),
      complete]
    exact filled.1.handOut small whole' enough mTime

/-- With nothing left to play `Playback` returns nothing and sees the end of the file. -/
theorem Playing.playback_end (p : v.Playing n []) (some : 0 < n) (bufsize : Nat)
    (mTime : Nat → Int32)
    : (v.Playback bufsize mTime).1 = none ∧ (v.Playback bufsize mTime).2.endOfData = true
      ∧ (v.Playback bufsize mTime).2.Playing n [] := by
  have empty {w : VPacket} (p : w.Playing n []) : w.nBufBytes ≤ headersize := by
    have none := (List.append_eq_nil_iff.mp p.pending).1
    rw [← p.length_window, none]
    exact Nat.zero_le _
  have running : ¬ v.nPlaybackSpeed < 0 := by
    rw [p.speed]
    decide
  have filled := p.fillBuffer
  rw [Playback, if_neg running, if_pos (empty p)]
  dsimp only
  rw [if_pos (empty filled.1)]
  refine ⟨rfl, ?_, filled.1⟩
  have none := List.append_eq_nil_iff.mp p.pending
  have bytes : v.nBufBytes = 0 := by rw [← p.length_window, none.1]; rfl
  rw [endOfData, VPacket.fillBuffer]
  by_cases ended : v.bEndofFile = true
  · rw [if_pos ended]
    exact ended
  · rw [if_neg ended]
    simp only [none.2, List.take_nil, List.length_nil, p.size, bytes, Nat.sub_zero]
    exact decide_eq_true some.ne

theorem playAll_cons (v : VPacket) (call : PlaybackCall) (more : List PlaybackCall)
    : v.playAll (call :: more)
      = ((v.Playback call.bufsize call.mTime).1
            :: ((v.Playback call.bufsize call.mTime).2.playAll more).1,
          ((v.Playback call.bufsize call.mTime).2.playAll more).2) := by
  rw [playAll]

/-- Past the end every call returns nothing, and the end of the data stays seen. -/
theorem Playing.playAll_end (p : v.Playing n []) (some : 0 < n) (calls : List PlaybackCall)
    : (v.playAll calls).1 = List.replicate calls.length none
      ∧ (0 < calls.length → (v.playAll calls).2.endOfData = true) := by
  induction calls generalizing v with
  | nil => exact ⟨rfl, nofun⟩
  | cons call more ih =>
      obtain ⟨none, ended, later⟩ := p.playback_end some call.bufsize call.mTime
      obtain ⟨nones, stays⟩ := ih later
      rw [playAll_cons, none, nones]
      refine ⟨rfl, fun _ => ?_⟩
      · rcases more with _ | ⟨next, more⟩
        · exact ended
        · exact stays (Nat.succ_pos _)

/-- Successive calls return the packets still to play in order, and then nothing, by induction
on the calls.
-/
theorem Playing.playAll {entries : List Entry} (calls : List PlaybackCall)
    (p : v.Playing n (entries.flatMap Entry.bytes)) (isInt : n < 2 ^ 31) (some : 0 < n)
    (fits : ∀ e ∈ entries, 0 < e.packet.data.length ∧ e.size ≤ n)
    (enough : ∀ call ∈ calls, ∀ e ∈ entries, e.packet.data.length ≤ call.bufsize)
    : (v.playAll calls).1
        = ((entries.map fun e : Entry => Option.some e.packet) ++ List.replicate calls.length none).take
            calls.length
      ∧ (entries.length < calls.length → (v.playAll calls).2.endOfData = true) := by
  induction calls generalizing v entries with
  | nil => exact ⟨by simp [VPacket.playAll], nofun⟩
  | cons call more ih =>
      rcases entries with _ | ⟨e, rest⟩
      · obtain ⟨nones, ended⟩ := p.playAll_end some (call :: more)
        refine ⟨?_, ended⟩
        rw [nones, List.map_nil, List.nil_append, List.take_replicate, Nat.min_self]
      · obtain ⟨nonempty, room⟩ := fits e List.mem_cons_self
        have large := enough call List.mem_cons_self e List.mem_cons_self
        obtain ⟨got, later⟩ := p.playback_next isInt room nonempty large call.mTime
        obtain ⟨results, ended⟩ := ih later
          (fun f member => fits f (List.mem_cons_of_mem _ member))
          (fun c called f member =>
            enough c (List.mem_cons_of_mem _ called) f (List.mem_cons_of_mem _ member))
        rw [playAll_cons, got, results]
        refine ⟨?_, fun less => ended (Nat.lt_of_succ_lt_succ less)⟩
        simp [List.replicate_succ', ← List.append_assoc, List.take_append]

end Playing

/-- A file recorded by a run of a recorder, and flushed at its end. -/
def recording (block : Block) (nPBSpeed : Int32) (ops : List RecordOp) : Bytes :=
  ((opened block [] nPBSpeed true).recordAll ops).Flush.written

/-- A packet is not empty and fits in both buffers with its header. -/
def Packet.Fits (packet : Packet) (recorder player : Block) : Prop :=
  0 < packet.data.length ∧ packet.data.length + headersize ≤ recorder.bytes.length
    ∧ packet.data.length + headersize ≤ player.bytes.length

/-- However many calls are made of a player at full speed, they return the recorded packets in
order and then nothing, and by then the end of the data was seen.
-/
def RoundTrips (recorder player : Block) (nPBSpeed : Int32) (ops : List RecordOp)
    (calls : List PlaybackCall)
    : Prop :=
  let played := (opened player (recording recorder nPBSpeed ops) 0 false).playAll calls
  played.1
      = ((packetsOf ops).map some ++ List.replicate calls.length none).take calls.length
    ∧ ((packetsOf ops).length < calls.length → played.2.endOfData = true)

/-- What was recorded is played back: whatever the clocks read, however the buffers cut the
records, whenever the recorder flushed. A player needs a buffer of one byte at least.
-/
theorem playback_recording (recorder player : Block) (nPBSpeed : Int32) (ops : List RecordOp)
    (calls : List PlaybackCall) (fits : ∀ packet ∈ packetsOf ops, packet.Fits recorder player)
    (enough : ∀ call ∈ calls, ∀ packet ∈ packetsOf ops, packet.data.length ≤ call.bufsize)
    (some : 0 < player.bytes.length)
    : RoundTrips recorder player nPBSpeed ops calls := by
  have recorded := (opened_recorded recorder [] nPBSpeed).recordAll ops
    fun packet member => (fits packet member).2.1
  obtain ⟨entries, same, file⟩ := recorded.file
  rw [List.nil_append] at same
  have member {e : Entry} (listed : e ∈ entries) : e.packet ∈ packetsOf ops :=
    same ▸ List.mem_map_of_mem listed
  have playing := opened_playing player (recording recorder nPBSpeed ops)
  rw [recording, file] at playing
  have played := playing.playAll calls player.isInt some
    (fun e listed => ⟨(fits _ (member listed)).1, (fits _ (member listed)).2.2⟩)
    (fun call called e listed => enough call called _ (member listed))
  rw [RoundTrips, recording, file, ← same, List.map_map, List.length_map]
  exact played

/-- Two records in a recorder's buffer of 90 bytes, with a flush between them, played through a
buffer of 45 that cuts the second one.
-/
theorem playback_recording_cut
    : let clock : Nat → Int32 := fun _ => 7
      let calls := List.replicate 3 ⟨8, clock⟩
      let ops := [.record ⟨[1, 2, 3], 5, 6⟩ clock, .flush, .record ⟨[4, 5], 7, 8⟩ clock]
      RoundTrips ⟨List.replicate 90 0, by decide⟩ ⟨List.replicate 45 0, by decide⟩ 1 ops
        calls :=
  playback_recording _ _ _ _ _
    (by simp [packetsOf, Packet.Fits, headersize])
    (by simp [packetsOf])
    (by decide)

/-- A player without a buffer never sees the end of an empty recording: the refill gets the
zero bytes that it asks for.
-/
theorem not_roundTrips_noBuffer
    : ¬ ∀ (recorder player : Block) (nPBSpeed : Int32) (ops : List RecordOp)
        (calls : List PlaybackCall),
        (∀ packet ∈ packetsOf ops, packet.Fits recorder player)
        → (∀ call ∈ calls, ∀ packet ∈ packetsOf ops, packet.data.length ≤ call.bufsize)
        → RoundTrips recorder player nPBSpeed ops calls := by
  intro always
  have played := always ⟨[], by decide⟩ ⟨[], by decide⟩ 1 [] [⟨0, fun _ => 0⟩] nofun
    (fun _ _ => nofun)
  have ended := played.2 (by decide)
  revert ended
  decide

end VPacket

end Scry
