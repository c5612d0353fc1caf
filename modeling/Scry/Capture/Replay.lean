import Scry.Capture.VPacket

/-! Playback of a recording to its end.
Each call of `Playback` that hands out a packet moves on, and a short read ends the playback; what
is left are the calls that hand out nothing and change nothing.
-/

namespace Scry

open VPacket

/-- `PACKETVERSION`. -/
def PACKETVERSION : Int64 := 40101

/-- The buffer of `processPlaybackPackets`. -/
def playbackBuffer : Nat := 8192

/-- `sizeof(struct ether_header)`. -/
def etherHeader : Nat := 14

/-- The clock around one call of `Playback`: what the player reads of it, and the milliseconds
since `processPlaybackPackets` was called.
-/
structure Tick where
  mTime : Nat → Int32
  elapsed : Int32

/-- What `dispatchPacket` is given, with the time it is stamped with. -/
structure PlayedPacket where
  timeMs : Int64
  size : Int
  buffer : Bytes
  deriving DecidableEq

/-- `EQPacket` while it plays a recording back, until `stop` is called. -/
structure Replay where
  vPacket : VPacket
  dispatched : List PlayedPacket
  stopped : Bool
  playbackFinished : Bool

namespace Replay

/-- Playback at full speed from the start of a file. -/
def started (block : Block) (file : Bytes) : Replay where
  vPacket := opened block file 0 false
  dispatched := []
  stopped := false
  playbackFinished := false

/-- `dispatchPacket` with the packet's recorded time. -/
def dispatchPacket (r : Replay) (packet : Packet) : Replay :=
  { r with
    dispatched := r.dispatched
      ++ [{ timeMs := packet.time * 1000
            size := packet.data.length - etherHeader
            buffer := packet.data.drop etherHeader }] }

/-- The loop of `processPlaybackPackets`, with whether it drained the source and the clock that is
left; it runs as far as the clock is known.
-/
def playbackLoop (r : Replay) : List Tick → Replay × Bool × List Tick
  | [] => (r, false, [])
  | tick :: later =>
      let (got, vPacket) := r.vPacket.Playback playbackBuffer tick.mTime
      let r := { r with vPacket }
      match got.filter (0 < ·.data.length) with
      | none => (r, true, later)
      | some packet =>
          if PACKETVERSION = packet.version then
            let r := r.dispatchPacket packet
            if tick.elapsed < 100 then r.playbackLoop later else (r, false, later)
          else ({ r with stopped := true }, false, later)

theorem length_playbackLoop (r : Replay) (tick : Tick) (later : List Tick)
    : (r.playbackLoop (tick :: later)).2.2.length ≤ later.length := by
  induction later generalizing r tick with
  | nil =>
      rw [playbackLoop]
      dsimp only
      split
      · exact Nat.le_refl _
      · split
        · split <;> exact Nat.le_refl _
        · exact Nat.le_refl _
  | cons next later ih =>
      rw [playbackLoop]
      dsimp only
      split
      · exact Nat.le_refl _
      · split
        · split
          · exact (ih _ next).trans (Nat.le_succ _)
          · exact Nat.le_refl _
        · exact Nat.le_refl _

/-- `processPlaybackPackets`: playback is finished where the loop drained a source that is at its
end.
-/
def processPlaybackPackets (r : Replay) (clock : List Tick) : Replay × List Tick :=
  let (r, drained, later) := r.playbackLoop clock
  if drained && r.vPacket.endOfData then
    ({ r with stopped := true, playbackFinished := true }, later)
  else (r, later)

theorem length_processPlaybackPackets (r : Replay) (tick : Tick) (later : List Tick)
    : (r.processPlaybackPackets (tick :: later)).2.length ≤ later.length := by
  have shorter := r.length_playbackLoop tick later
  rw [processPlaybackPackets]
  dsimp only
  split <;> exact shorter

/-- The timer calls `processPlaybackPackets` again and again until it is stopped. -/
def replay (r : Replay) : List Tick → Replay
  | [] => r
  | tick :: later =>
      if r.stopped then r
      else
        let next := r.processPlaybackPackets (tick :: later)
        next.1.replay next.2
  termination_by clock => clock.length
  decreasing_by exact Nat.lt_succ_of_le (r.length_processPlaybackPackets tick later)

/-- One call of `Playback` and what follows from it. -/
def call (r : Replay) (tick : Tick) : Replay :=
  let (got, vPacket) := r.vPacket.Playback playbackBuffer tick.mTime
  let r := { r with vPacket }
  match got.filter (0 < ·.data.length) with
  | none =>
      if vPacket.endOfData then { r with stopped := true, playbackFinished := true } else r
  | some packet =>
      if PACKETVERSION = packet.version then r.dispatchPacket packet
      else { r with stopped := true }

theorem replay_of_stopped {r : Replay} (stopped : r.stopped = true) (clock : List Tick)
    : r.replay clock = r := by
  cases clock with
  | nil => rw [replay]
  | cons tick later => rw [replay, if_pos stopped]

theorem replay_running {r : Replay} (running : r.stopped = false) (tick : Tick)
    (later : List Tick)
    : r.replay (tick :: later)
      = (r.processPlaybackPackets (tick :: later)).1.replay
        (r.processPlaybackPackets (tick :: later)).2 := by
  rw [replay, if_neg (by rw [running]; exact Bool.false_ne_true)]

/-- Where a loop ends makes no difference: playback goes on with the next call. -/
theorem replay_cons {r : Replay} (running : r.stopped = false) (tick : Tick) (later : List Tick)
    : r.replay (tick :: later) = (r.call tick).replay later := by
  rw [replay_running running]
  simp only [processPlaybackPackets, playbackLoop, call]
  split
  · simp only [Bool.true_and]
    split <;> rfl
  · split
    · split
      · cases later with
        | nil => simp [playbackLoop, replay]
        | cons next later =>
            exact (replay_running (by exact running) next later).symm
      · simp
    · simp

end Replay

/-! What one call of `Playback` does with the record it comes to. -/

namespace VPacket

/-- The size the first record of some bytes has by its header. -/
def recordSize (pending : Bytes) : Int := (intAt pending 0).toInt

/-- The version of the first record of some bytes. -/
def recordVersion (pending : Bytes) : Int64 := longAt pending 16

/-- Of the bytes still to play, how many a buffer of `n` that had `held` of them holds when the
first record is handed out; nothing where a refill is short.
-/
def holds (n held : Nat) (pending : Bytes) : Option Nat :=
  if headersize < held ∧ recordSize pending ≤ held then some held
  else if pending.length < n then none
  else some n

/-- What becomes of the first record before a read was short. -/
inductive Turn
  | ends
  | stalls
  | plays (size held : Nat)
  deriving DecidableEq

/-- Playback ends at a short refill and at a size below that of a header. It stalls where the
buffer cannot hold the record, or the caller's buffer not its data.
-/
def turn (n bufsize held : Nat) (pending : Bytes) : Turn :=
  match holds n held pending with
  | none => .ends
  | some held =>
      if held ≤ headersize ∨ held < recordSize pending then .stalls
      else if recordSize pending < headersize then .ends
      else if bufsize < (recordSize pending).toNat - headersize then .stalls
      else .plays (recordSize pending).toNat held

/-- Playing record after record of the recorder's version comes to one that is not handed out,
with no read short before.
-/
inductive Stalls (n bufsize : Nat) : Nat → Bytes → Prop
  | stuck {held : Nat} {pending : Bytes} (stalls : turn n bufsize held pending = .stalls)
    : Stalls n bufsize held pending
  | later {held size whole : Nat} {pending : Bytes}
    (plays : turn n bufsize held pending = .plays size whole)
    (same : size = headersize ∨ recordVersion pending = PACKETVERSION)
    (rest : Stalls n bufsize (whole - size) (pending.drop size))
    : Stalls n bufsize held pending

section Calls

variable {v : VPacket} {n bufsize : Nat} {pending : Bytes}

/-- A field that lies in the front of some bytes does not depend on what follows. -/
theorem readBytes_front {front : Bytes} (tail : Bytes) {address width : Nat}
    (inside : address + width ≤ front.length)
    : readBytes ((front ++ tail).drop address) width = (front.drop address).take width := by
  rw [List.drop_append_of_le_length (by omega), readBytes_of_le, List.take_append_of_le_length]
  · rw [List.length_drop]
    omega
  · rw [List.length_append, List.length_drop]
    omega

/-- The header fields of the first record are read from the buffer. -/
theorem Playing.readBytes (p : v.Playing n pending) (address width : Nat)
    (inside : address + width ≤ v.nBufBytes)
    : Scry.readBytes (v.cBuffer.drop (v.nBufIndex + address)) width
      = Scry.readBytes (pending.drop address) width := by
  have window := p.length_window
  rw [← List.drop_drop, p.drop_index, ← p.pending, readBytes_front _ (by omega),
    readBytes_front _ (by omega)]

theorem Playing.recordSize (p : v.Playing n pending) (some : headersize < v.nBufBytes)
    : (intAt v.cBuffer v.nBufIndex).toInt = recordSize pending := by
  have field := p.readBytes 0 4 (by simp only [headersize] at some; omega)
  rw [VPacket.recordSize, intAt, intAt, ← field, Nat.add_zero]

theorem Playing.recordVersion (p : v.Playing n pending) (some : headersize < v.nBufBytes)
    : longAt v.cBuffer (v.nBufIndex + 16) = recordVersion pending := by
  have field := p.readBytes 16 8 (by simp only [headersize] at some; omega)
  rw [VPacket.recordVersion, longAt, longAt, field]

/-- Before a read was short, a refill holds all there is or fills the buffer. -/
theorem Playing.fillBuffer_open (p : v.Playing n pending) (isOpen : v.bEndofFile = false)
    : v.fillBuffer.2.nBufBytes = min n pending.length
      ∧ v.fillBuffer.2.bEndofFile = decide (pending.length < n)
      ∧ v.fillBuffer.1 = min n pending.length - v.nBufBytes
      ∧ v.fillBuffer.2.nBufIndex = 0 := by
  have inside := p.inside
  have length := congrArg List.length p.pending
  rw [List.length_append, p.length_window] at length
  simp only [VPacket.fillBuffer, isOpen, Bool.false_eq_true, if_false, p.size, List.length_take,
    and_true]
  refine ⟨by omega, ?_, by omega⟩
  apply decide_eq_decide.mpr
  omega

/-- The player after a packet was handed out. -/
structure Advanced (v after : VPacket) (size : Nat) : Prop where
  speed : after.nPlaybackSpeed = v.nPlaybackSpeed
  ended : after.bEndofFile = v.bEndofFile
  buffer : after.cBuffer = v.cBuffer ∧ after.nBufSize = v.nBufSize ∧ after.unread = v.unread
  index : after.nBufIndex = v.nBufIndex + size
  bytes : after.nBufBytes = v.nBufBytes - size

/-- What is left to play after the first bytes of the buffer. -/
theorem Playing.advance (p : v.Playing n pending) {after : VPacket} {size : Nat}
    (advanced : v.Advanced after size) (held : size ≤ v.nBufBytes)
    : after.Playing n (pending.drop size) := by
  obtain ⟨speed, ended, ⟨memory, nBufSize, unread⟩, index, bytes⟩ := advanced
  have inside := p.inside
  have window : after.window = v.window.drop size := by
    rw [window, window, memory, index, bytes, List.drop_take, List.drop_drop]
  have length := p.length_window
  refine ⟨speed.trans p.speed, nBufSize.trans p.size, ?_, by omega, ?_, ?_⟩
  · rw [memory, p.memory]
  · rw [window, unread, ← p.pending, List.drop_append_of_le_length (by omega)]
  · rw [ended, unread]
    exact p.ended

/-- What `handOut` does at full speed: it sees a size below a header's, or the caller's buffer is
too small, or it hands the record out and moves on.
-/
theorem handOut_fullSpeed (full : v.nPlaybackSpeed = 0) (packet bufsize : Nat)
    (mTime : Nat → Int32)
    : ∃ after : VPacket,
      if (intAt v.cBuffer packet).toInt < headersize then
        v.handOut packet bufsize mTime = (none, after)
        ∧ after.bEndofFile = true ∧ after.nPlaybackSpeed = 0
      else if bufsize < (intAt v.cBuffer packet).toInt.toNat - headersize then
        v.handOut packet bufsize mTime = (none, after) ∧ v.Advanced after 0
      else
        ∃ time : Int64, v.handOut packet bufsize mTime
          = (some
              { data := Scry.readBytes (v.cBuffer.drop (packet + headersize))
                  ((intAt v.cBuffer packet).toInt.toNat - headersize)
                time
                version := longAt v.cBuffer (packet + 16) }, after)
        ∧ v.Advanced after (intAt v.cBuffer packet).toInt.toNat := by
  have onTime (ms : Int64) : (v.startTimers ms mTime).tooEarly ms mTime = false :=
    tooEarly_fullSpeed (v := v.startTimers ms mTime) full ms mTime
  have keeps (ms : Int64) : (v.startTimers ms mTime).cBuffer = v.cBuffer := rfl
  simp only [handOut, onTime, keeps, Bool.false_eq_true, if_false]
  split
  · exact ⟨_, rfl, rfl, full⟩
  · split
    · exact ⟨_, rfl, rfl, rfl, ⟨rfl, rfl, rfl⟩, rfl, rfl⟩
    case isFalse large _ =>
      refine ⟨_, _, rfl, rfl, rfl, ⟨rfl, rfl, rfl⟩, ?_, ?_⟩
      · have whole : (intAt v.cBuffer packet).toInt.toNat - headersize + headersize
            = (intAt v.cBuffer packet).toInt.toNat := Nat.sub_add_cancel (by omega)
        simp only [whole]
        rfl
      · have whole : (intAt v.cBuffer packet).toInt.toNat - headersize + headersize
            = (intAt v.cBuffer packet).toInt.toNat := Nat.sub_add_cancel (by omega)
        simp only [whole]
        rfl

/-- A refill before the end of the file fills the buffer; the pointer to the record stays right
where nothing was read, since the buffer was full from its start then.
-/
theorem Playing.refill (p : v.Playing n pending) (isOpen : v.bEndofFile = false)
    (enough : n ≤ pending.length)
    : v.fillBuffer.2.Playing n pending ∧ v.fillBuffer.2.bEndofFile = false
      ∧ v.fillBuffer.2.nBufBytes = n
      ∧ (if v.fillBuffer.1 = 0 then v.nBufIndex else v.fillBuffer.2.nBufIndex)
        = v.fillBuffer.2.nBufIndex := by
  obtain ⟨bytes, short, got, index⟩ := p.fillBuffer_open isOpen
  rw [Nat.min_eq_left enough] at bytes got
  have inside := p.inside
  refine ⟨p.fillBuffer.1, short.trans (decide_eq_false (Nat.not_lt.mpr enough)), bytes, ?_⟩
  split
  · omega
  · rfl

/-- `Playback` before a read is short, by what it does with the record it comes to. -/
theorem Playing.fetch (p : v.Playing n pending) (isOpen : v.bEndofFile = false) {whole : Nat}
    (held : holds n v.nBufBytes pending = some whole) (bufsize : Nat) (mTime : Nat → Int32)
    : ∃ w : VPacket, w.Playing n pending ∧ w.bEndofFile = false ∧ w.nBufBytes = whole
      ∧ v.Playback bufsize mTime
        = if whole ≤ headersize ∨ whole < VPacket.recordSize pending then (none, w)
          else w.handOut w.nBufIndex bufsize mTime := by
  have running : ¬ v.nPlaybackSpeed < 0 := by
    rw [p.speed]
    decide
  rw [holds] at held
  rw [Playback, if_neg running]
  dsimp only
  split at held
  case isTrue inBuffer =>
    obtain ⟨some, fits⟩ := inBuffer
    obtain rfl := Option.some.inj held
    have complete : ¬ (v.nBufBytes : Int) < VPacket.recordSize pending := by omega
    refine ⟨v, p, isOpen, rfl, ?_⟩
    simp only [Nat.not_le.mpr some, if_false, p.recordSize some, complete, false_or]
  case isFalse notHeld =>
    split at held
    · cases held
    case isFalse full =>
      obtain rfl := Option.some.inj held
      have enough := Nat.not_lt.mp full
      obtain ⟨ready, readyOpen, bytes, pointer⟩ := p.refill isOpen enough
      by_cases little : v.nBufBytes ≤ headersize
      · simp only [little, if_true, bytes]
        by_cases tiny : n ≤ headersize
        · exact ⟨_, ready, readyOpen, bytes, by simp only [tiny, true_or, if_true]⟩
        · have header : headersize < v.fillBuffer.2.nBufBytes := bytes ▸ Nat.lt_of_not_le tiny
          simp only [tiny, if_false, ready.recordSize header, false_or]
          by_cases long : (n : Int) < VPacket.recordSize pending
          · -- the second refill finds no room and changes nothing
            obtain ⟨again, againOpen, againBytes, againPointer⟩ := ready.refill readyOpen enough
            have againHeader : headersize < v.fillBuffer.2.fillBuffer.2.nBufBytes :=
              againBytes ▸ Nat.lt_of_not_le tiny
            refine ⟨_, again, againOpen, againBytes, ?_⟩
            simp only [long, if_true, againPointer, again.recordSize againHeader, againBytes]
          · refine ⟨_, ready, readyOpen, bytes, ?_⟩
            simp only [long, if_false, bytes, ready.recordSize header]
      · have some := Nat.lt_of_not_le little
        have cut : (v.nBufBytes : Int) < VPacket.recordSize pending := by
          by_contra whole
          exact notHeld ⟨some, by omega⟩
        have inside := p.inside
        have header : headersize < v.fillBuffer.2.nBufBytes := by omega
        have large : ¬ n ≤ headersize := by omega
        refine ⟨_, ready, readyOpen, bytes, ?_⟩
        simp only [little, if_false, p.recordSize some, cut, if_true, pointer,
          ready.recordSize header, bytes, large, false_or]

/-- `Playback` on a record that the buffer holds whole. -/
theorem Playing.playback_whole (p : v.Playing n pending) (isOpen : v.bEndofFile = false)
    {whole : Nat} (held : holds n v.nBufBytes pending = some whole)
    (inBuffer : ¬ (whole ≤ headersize ∨ whole < VPacket.recordSize pending)) (bufsize : Nat)
    (mTime : Nat → Int32)
    : ∃ w after : VPacket, w.Playing n pending ∧ w.bEndofFile = false ∧ w.nBufBytes = whole
      ∧ if VPacket.recordSize pending < headersize then
          v.Playback bufsize mTime = (none, after)
          ∧ after.bEndofFile = true ∧ after.nPlaybackSpeed = 0
        else if bufsize < (VPacket.recordSize pending).toNat - headersize then
          v.Playback bufsize mTime = (none, after) ∧ w.Advanced after 0
        else
          ∃ packet : Packet, v.Playback bufsize mTime = (some packet, after)
          ∧ packet.data.length = (VPacket.recordSize pending).toNat - headersize
          ∧ packet.version = VPacket.recordVersion pending
          ∧ w.Advanced after (VPacket.recordSize pending).toNat := by
  obtain ⟨w, ready, readyOpen, bytes, result⟩ := p.fetch isOpen held bufsize mTime
  have header : headersize < w.nBufBytes := by
    rw [bytes]
    exact Nat.lt_of_not_le fun small => inBuffer (.inl small)
  obtain ⟨after, hands⟩ := handOut_fullSpeed ready.speed w.nBufIndex bufsize mTime
  rw [ready.recordSize header] at hands
  refine ⟨w, after, ready, readyOpen, bytes, ?_⟩
  rw [result, if_neg inBuffer]
  split_ifs at hands ⊢ with small room
  · exact hands
  · exact hands
  · obtain ⟨time, handed, advanced⟩ := hands
    exact ⟨_, handed, readBytes_length _ _, ready.recordVersion header, advanced⟩

/-- A record in its turn is handed out with its version, and the rest is still to play. -/
theorem Playing.playback_plays (p : v.Playing n pending) (isOpen : v.bEndofFile = false)
    {size whole : Nat} (plays : turn n bufsize v.nBufBytes pending = .plays size whole)
    (mTime : Nat → Int32)
    : ∃ packet : Packet, (v.Playback bufsize mTime).1 = some packet
      ∧ packet.data.length = size - headersize ∧ packet.version = VPacket.recordVersion pending
      ∧ headersize ≤ size ∧ size ≤ pending.length
      ∧ (v.Playback bufsize mTime).2.Playing n (pending.drop size)
      ∧ (v.Playback bufsize mTime).2.bEndofFile = false
      ∧ (v.Playback bufsize mTime).2.nBufBytes = whole - size := by
  rw [turn] at plays
  split at plays
  · cases plays
  case h_2 held holding =>
    split at plays
    · cases plays
    case isFalse inBuffer =>
      have fits : ¬ (held : Int) < VPacket.recordSize pending := fun long => inBuffer (.inr long)
      obtain ⟨w, after, ready, readyOpen, bytes, result⟩ :=
        p.playback_whole isOpen holding inBuffer bufsize mTime
      split at plays
      · cases plays
      case isFalse large =>
        rw [if_neg large] at result
        split at plays
        · cases plays
        case isFalse room =>
          obtain ⟨rfl, rfl⟩ := Turn.plays.inj plays
          rw [if_neg room] at result
          obtain ⟨packet, handed, data, version, advanced⟩ := result
          rw [handed]
          have length := congrArg List.length ready.pending
          rw [List.length_append, ready.length_window] at length
          exact ⟨packet, rfl, data, version, by omega, by omega,
            ready.advance advanced (by omega), advanced.ended.trans readyOpen,
            advanced.bytes.trans (by rw [bytes])⟩

/-- What the buffer holds for a record it still holds at the next look. -/
theorem holds_again {held whole : Nat} (holding : holds n held pending = some whole)
    : holds n whole pending = some whole := by
  rw [holds] at holding
  split at holding
  case isTrue inBuffer =>
    obtain rfl := Option.some.inj holding
    exact if_pos inBuffer
  case isFalse =>
    split at holding
    · cases holding
    case isFalse full =>
      obtain rfl := Option.some.inj holding
      rw [holds, if_neg full, ite_self]

/-- A call that stalls hands nothing out, and the next one stalls as well. -/
theorem Playing.playback_stalls (p : v.Playing n pending) (isOpen : v.bEndofFile = false)
    (stalls : turn n bufsize v.nBufBytes pending = .stalls) (mTime : Nat → Int32)
    : (v.Playback bufsize mTime).1 = none
      ∧ (v.Playback bufsize mTime).2.Playing n pending
      ∧ (v.Playback bufsize mTime).2.bEndofFile = false
      ∧ turn n bufsize (v.Playback bufsize mTime).2.nBufBytes pending = .stalls := by
  obtain ⟨whole, holding⟩ : ∃ whole, holds n v.nBufBytes pending = some whole := by
    rw [turn] at stalls
    split at stalls
    · cases stalls
    case h_2 whole holding => exact ⟨whole, holding⟩
  have again : turn n bufsize whole pending = .stalls := by
    rw [turn, holds_again holding]
    rw [turn, holding] at stalls
    exact stalls
  rw [turn, holding] at stalls
  dsimp only at stalls
  split at stalls
  case isTrue outside =>
    obtain ⟨w, ready, readyOpen, bytes, result⟩ := p.fetch isOpen holding bufsize mTime
    rw [result, if_pos outside]
    exact ⟨rfl, ready, readyOpen, bytes.symm ▸ again⟩
  case isFalse inBuffer =>
    obtain ⟨w, after, ready, readyOpen, bytes, result⟩ :=
      p.playback_whole isOpen holding inBuffer bufsize mTime
    split at stalls
    · cases stalls
    case isFalse large =>
      split at stalls
      case isTrue small =>
        rw [if_neg large, if_pos small] at result
        obtain ⟨handed, same⟩ := result
        rw [handed]
        have after := ready.advance same (Nat.zero_le _)
        exact ⟨rfl, after, same.ended.trans readyOpen, (same.bytes.trans bytes).symm ▸ again⟩
      · cases stalls

/-- Once the end of the file was seen, `handOut` leaves it seen. -/
theorem handOut_ended (full : v.nPlaybackSpeed = 0) (ended : v.bEndofFile = true) (packet : Nat)
    (bufsize : Nat) (mTime : Nat → Int32)
    : (v.handOut packet bufsize mTime).2.bEndofFile = true
      ∧ (v.handOut packet bufsize mTime).2.nPlaybackSpeed = 0
      ∧ ((v.handOut packet bufsize mTime).1.isSome → 0 < v.nBufBytes
        → (v.handOut packet bufsize mTime).2.nBufBytes < v.nBufBytes) := by
  obtain ⟨after, hands⟩ := handOut_fullSpeed full packet bufsize mTime
  split at hands
  · obtain ⟨handed, seen, speed⟩ := hands
    rw [handed]
    exact ⟨seen, speed, fun nothing => absurd nothing Bool.false_ne_true⟩
  case isFalse large =>
    split at hands
    · obtain ⟨handed, same⟩ := hands
      rw [handed]
      exact ⟨same.ended.trans ended, same.speed.trans full,
        fun nothing => absurd nothing Bool.false_ne_true⟩
    · obtain ⟨time, handed, advanced⟩ := hands
      rw [handed]
      refine ⟨advanced.ended.trans ended, advanced.speed.trans full, fun _ some => ?_⟩
      simp only [headersize] at large
      rw [advanced.bytes]
      omega

/-- After a short read every call that hands a packet out leaves fewer bytes in the buffer. -/
theorem playback_ended (full : v.nPlaybackSpeed = 0) (ended : v.bEndofFile = true)
    (bufsize : Nat) (mTime : Nat → Int32)
    : (v.Playback bufsize mTime).2.bEndofFile = true
      ∧ (v.Playback bufsize mTime).2.nPlaybackSpeed = 0
      ∧ ((v.Playback bufsize mTime).1.isSome
        → (v.Playback bufsize mTime).2.nBufBytes < v.nBufBytes) := by
  have running : ¬ v.nPlaybackSpeed < 0 := by
    rw [full]
    decide
  have nothing : v.fillBuffer = (0, v) := if_pos ended
  simp only [Playback, running, if_false, nothing, ite_self]
  split
  · exact ⟨ended, full, fun none => absurd none Bool.false_ne_true⟩
  case isFalse some =>
    split
    · exact ⟨ended, full, fun none => absurd none Bool.false_ne_true⟩
    · obtain ⟨seen, speed, fewer⟩ := handOut_ended full ended v.nBufIndex bufsize mTime
      exact ⟨seen, speed, fun handed => fewer handed (Nat.zero_lt_of_lt (Nat.lt_of_not_le some))⟩

/-- A call that needs more than the file has sees the end of it. -/
theorem Playing.playback_short (p : v.Playing n pending) (isOpen : v.bEndofFile = false)
    (missing : holds n v.nBufBytes pending = none) (bufsize : Nat) (mTime : Nat → Int32)
    : (v.Playback bufsize mTime).2.bEndofFile = true
      ∧ (v.Playback bufsize mTime).2.nPlaybackSpeed = 0 := by
  obtain ⟨cut, short⟩ : ¬ (headersize < v.nBufBytes ∧ VPacket.recordSize pending ≤ v.nBufBytes)
      ∧ pending.length < n := by
    rw [holds] at missing
    split at missing
    · cases missing
    case isFalse cut =>
      split at missing
      case isTrue short => exact ⟨cut, short⟩
      · cases missing
  have running : ¬ v.nPlaybackSpeed < 0 := by
    rw [p.speed]
    decide
  have speed : v.fillBuffer.2.nPlaybackSpeed = 0 := p.fillBuffer.1.speed
  have seen : v.fillBuffer.2.bEndofFile = true :=
    (p.fillBuffer_open isOpen).2.1.trans (decide_eq_true short)
  have nothing : v.fillBuffer.2.fillBuffer = (0, v.fillBuffer.2) := if_pos seen
  have handed (packet : Nat) := handOut_ended speed seen packet bufsize mTime
  rw [Playback, if_neg running]
  dsimp only
  by_cases little : v.nBufBytes ≤ headersize
  · simp only [little, if_true, nothing, ite_self]
    split
    · exact ⟨seen, speed⟩
    · split
      · exact ⟨seen, speed⟩
      · exact ⟨(handed _).1, (handed _).2.1⟩
  · have some := Nat.lt_of_not_le little
    have long : (v.nBufBytes : Int) < VPacket.recordSize pending := by
      by_contra whole
      exact cut ⟨some, by omega⟩
    simp only [little, if_false, p.recordSize some, long, if_true]
    -- where the refill read nothing, the pointer is the old one
    generalize (if v.fillBuffer.1 = 0 then v.nBufIndex else v.fillBuffer.2.nBufIndex) = packet
    split
    · exact ⟨seen, speed⟩
    · exact ⟨(handed _).1, (handed _).2.1⟩

/-- A call that ends playback sees the end of the file. -/
theorem Playing.playback_ends (p : v.Playing n pending) (isOpen : v.bEndofFile = false)
    (ends : turn n bufsize v.nBufBytes pending = .ends) (mTime : Nat → Int32)
    : (v.Playback bufsize mTime).2.bEndofFile = true
      ∧ (v.Playback bufsize mTime).2.nPlaybackSpeed = 0 := by
  rw [turn] at ends
  split at ends
  case h_1 missing => exact p.playback_short isOpen missing bufsize mTime
  case h_2 held holding =>
    split at ends
    · cases ends
    case isFalse inBuffer =>
      obtain ⟨w, after, -, -, -, result⟩ :=
        p.playback_whole isOpen holding inBuffer bufsize mTime
      split at ends
      case isTrue small =>
        rw [if_pos small] at result
        obtain ⟨handed, seen, speed⟩ := result
        rw [handed]
        exact ⟨seen, speed⟩
      · split at ends
        · cases ends
        · cases ends

end Calls

end VPacket

namespace Replay

open VPacket

variable {r : Replay}

theorem call_vPacket (tick : Tick)
    : (r.call tick).vPacket = (r.vPacket.Playback playbackBuffer tick.mTime).2 := by
  simp only [call]
  split
  · split <;> rfl
  · split <;> rfl

/-- A call that hands nothing out stops playback exactly where the end of the file was seen. -/
theorem call_nothing {tick : Tick}
    (nothing : (r.vPacket.Playback playbackBuffer tick.mTime).1.filter (0 < ·.data.length) = none)
    : (r.call tick).stopped
      = (r.stopped || (r.vPacket.Playback playbackBuffer tick.mTime).2.bEndofFile) := by
  simp only [call, nothing]
  split
  case isTrue seen => exact (Bool.or_eq_true_iff.mpr (.inr seen)).symm
  case isFalse unseen =>
    have unseen : (r.vPacket.Playback playbackBuffer tick.mTime).2.bEndofFile = false :=
      Bool.eq_false_of_not_eq_true unseen
    rw [unseen, Bool.or_false]

/-- A call that hands a record out stops playback exactly where it is of another version; an empty
record passes unseen.
-/
theorem call_handed {tick : Tick} {packet : Packet} {size : Nat}
    (handed : (r.vPacket.Playback playbackBuffer tick.mTime).1 = some packet)
    (length : packet.data.length = size - headersize) (header : headersize ≤ size)
    (isOpen : (r.vPacket.Playback playbackBuffer tick.mTime).2.bEndofFile = false)
    (running : r.stopped = false)
    : (r.call tick).stopped = false ↔ size = headersize ∨ packet.version = PACKETVERSION := by
  rcases header.eq_or_lt with empty | data
  · have nothing : (r.vPacket.Playback playbackBuffer tick.mTime).1.filter (0 < ·.data.length)
        = none := by
      rw [handed, Option.filter_some, if_neg]
      exact fun some => absurd (of_decide_eq_true some) (by omega)
    rw [call_nothing nothing, running, isOpen]
    exact iff_of_true rfl (.inl empty.symm)
  · have some : (r.vPacket.Playback playbackBuffer tick.mTime).1.filter (0 < ·.data.length)
        = some packet := by
      rw [handed, Option.filter_some, if_pos]
      exact decide_eq_true (by omega)
    have other : size ≠ headersize := data.ne'
    simp only [call, some, other, false_or]
    split
    case isTrue same => exact iff_of_true running same.symm
    case isFalse differs => exact iff_of_false (by simp) fun same => differs same.symm

/-- The first calls of a clock. -/
def firstCalls (clock : Nat → Tick) (calls : Nat) : List Tick := (List.range calls).map clock

theorem firstCalls_succ (clock : Nat → Tick) (calls : Nat)
    : firstCalls clock (calls + 1) = clock 0 :: firstCalls (fun k => clock (k + 1)) calls := by
  simp [firstCalls, List.range_succ_eq_map, Function.comp_def]

/-- Playback that stops after its next call stops. -/
theorem stops_of_call {clock : Nat → Tick}
    (later : ∃ calls, ((r.call (clock 0)).replay
      (firstCalls (fun k => clock (k + 1)) calls)).stopped = true)
    : ∃ calls, (r.replay (firstCalls clock calls)).stopped = true := by
  obtain ⟨calls, stopped⟩ := later
  cases running : r.stopped with
  | true => exact ⟨0, by rw [replay_of_stopped running, running]⟩
  | false => exact ⟨calls + 1, by rw [firstCalls_succ, replay_cons running, stopped]⟩

/-- After a short read playback stops, by induction on the bytes in the buffer. -/
theorem stops_of_ended {held : Nat} (full : r.vPacket.nPlaybackSpeed = 0)
    (ended : r.vPacket.bEndofFile = true) (bytes : r.vPacket.nBufBytes ≤ held)
    (clock : Nat → Tick)
    : ∃ calls, (r.replay (firstCalls clock calls)).stopped = true := by
  induction held using Nat.strong_induction_on generalizing r clock with
  | _ held ih =>
      obtain ⟨seen, speed, fewer⟩ := playback_ended full ended playbackBuffer (clock 0).mTime
      apply stops_of_call
      cases handed : (r.vPacket.Playback playbackBuffer (clock 0).mTime).1 with
      | none =>
          have stopped : (r.call (clock 0)).stopped = true := by
            rw [call_nothing (by rw [handed]; rfl), seen, Bool.or_true]
          exact ⟨0, by rw [replay_of_stopped stopped, stopped]⟩
      | some packet =>
          have less := fewer (by rw [handed]; rfl)
          rw [← call_vPacket] at seen speed less
          exact ih _ (less.trans_le bytes) speed seen (Nat.le_refl _) _

/-- What stalls never stops, by induction on the calls. -/
theorem not_stopped_of_stalls {n : Nat} {pending : Bytes} (running : r.stopped = false)
    (p : r.vPacket.Playing n pending) (isOpen : r.vPacket.bEndofFile = false)
    (stalls : Stalls n playbackBuffer r.vPacket.nBufBytes pending) (clock : Nat → Tick)
    (calls : Nat)
    : (r.replay (firstCalls clock calls)).stopped = false := by
  induction calls generalizing r pending clock with
  | zero => exact (congrArg Replay.stopped (by rw [firstCalls]; simp [replay])).trans running
  | succ calls ih =>
      rw [firstCalls_succ, replay_cons running]
      cases stalls with
      | stuck stalls =>
          obtain ⟨nothing, same, stillOpen, again⟩ :=
            p.playback_stalls isOpen stalls (clock 0).mTime
          have goes : (r.call (clock 0)).stopped = false := by
            rw [call_nothing (by rw [nothing]; rfl), running, stillOpen, Bool.or_false]
          rw [← call_vPacket] at same stillOpen again
          exact ih goes same stillOpen (.stuck again) _
      | later plays same rest =>
          obtain ⟨packet, handed, length, version, header, _, next, stillOpen, bytes⟩ :=
            p.playback_plays isOpen plays (clock 0).mTime
          have goes := (call_handed handed length header stillOpen running).mpr
            (version ▸ same)
          rw [← call_vPacket] at next stillOpen bytes
          exact ih goes next stillOpen (bytes ▸ rest) _

/-- What does not stall stops, by induction on the bytes that are left to play. -/
theorem stops_of_not_stalls {n left : Nat} {pending : Bytes}
    (p : r.vPacket.Playing n pending) (isOpen : r.vPacket.bEndofFile = false)
    (moves : ¬ Stalls n playbackBuffer r.vPacket.nBufBytes pending)
    (length : pending.length ≤ left) (clock : Nat → Tick)
    : ∃ calls, (r.replay (firstCalls clock calls)).stopped = true := by
  induction left using Nat.strong_induction_on generalizing r pending clock with
  | _ left ih =>
      cases running : r.stopped with
      | true => exact ⟨0, by rw [replay_of_stopped running, running]⟩
      | false =>
          apply stops_of_call
          cases turns : turn n playbackBuffer r.vPacket.nBufBytes pending with
          | stalls => exact absurd (.stuck turns) moves
          | ends =>
              obtain ⟨seen, speed⟩ := p.playback_ends isOpen turns (clock 0).mTime
              rw [← call_vPacket] at seen speed
              exact stops_of_ended speed seen (Nat.le_refl _) _
          | plays size whole =>
              obtain ⟨packet, handed, data, version, header, inside, next, stillOpen, bytes⟩ :=
                p.playback_plays isOpen turns (clock 0).mTime
              cases goes : (r.call (clock 0)).stopped with
              | true => exact ⟨0, by rw [replay_of_stopped goes, goes]⟩
              | false =>
                  have same := (call_handed handed data header stillOpen running).mp goes
                  rw [← call_vPacket] at next stillOpen bytes
                  refine ih (pending.drop size).length ?_ next stillOpen ?_ (Nat.le_refl _) _
                  · have some : 0 < size := Nat.lt_of_lt_of_le (by decide) header
                    rw [List.length_drop]
                    omega
                  · intro rest
                    exact moves (.later turns (version ▸ same) (bytes ▸ rest))

/-- Playback of a file at full speed stops after finitely many calls of `Playback`, whatever the
clock says, exactly where reading the file in full buffers does not come to a record that stalls.
-/
theorem playback_stops_iff (block : Block) (file : Bytes) (clock : Nat → Tick)
    : (∃ calls, ((started block file).replay (firstCalls clock calls)).stopped = true)
      ↔ ¬ Stalls block.bytes.length playbackBuffer 0 file := by
  have p := opened_playing block file
  constructor
  · rintro ⟨calls, stopped⟩ stalls
    have running := @not_stopped_of_stalls (started block file) _ _ rfl p rfl stalls clock calls
    exact Bool.false_ne_true (running.symm.trans stopped)
  · intro moves
    exact @stops_of_not_stalls (started block file) _ _ _ p rfl moves (Nat.le_refl _) clock

/-- A file of 8192 bytes whose first record claims 9000 is played for ever: the buffer of 8192
bytes is full, and the end of the file is not seen.
-/
theorem not_playback_stops
    : ¬ ∀ (block : Block) (file : Bytes) (clock : Nat → Tick),
      ∃ calls, ((started block file).replay (firstCalls clock calls)).stopped = true := by
  intro all
  let block : Block := ⟨List.replicate 8192 0, by rw [List.length_replicate]; decide⟩
  let file : Bytes := intBytes 9000 ++ List.replicate 8188 0
  have length : file.length = 8192 := by
    rw [List.length_append, length_intBytes, List.length_replicate]
  have size : recordSize file = 9000 := by
    rw [recordSize, @intAt_of_drop file (List.replicate 8188 0) 0 9000 rfl]
    decide
  have stalls : turn 8192 playbackBuffer 0 file = .stalls := by
    simp [turn, holds, length, size, headersize]
  obtain ⟨calls, stopped⟩ := all block file fun _ => ⟨fun _ => 0, 0⟩
  have p : (started block file).vPacket.Playing 8192 file :=
    List.length_replicate (n := 8192) (a := (0 : UInt8)) ▸ opened_playing block file
  have running := not_stopped_of_stalls rfl p rfl (.stuck stalls) (fun _ => ⟨fun _ => 0, 0⟩) calls
  exact Bool.false_ne_true (running.symm.trans stopped)

end Replay

end Scry
