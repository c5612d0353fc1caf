import Scry.Library.Machine
import Scry.Wire.Bytes

/-! The queue between a capture thread and the decoder.
A length goes in as 32 bits, is kept as it is, comes out as 16 bits and is read back as a
signed `short`; the bytes are copied to a buffer of `BUFSIZ`.
-/

namespace Scry

/-- `SEQ_MAX_CAPLEN`, the longest frame that a reader admits. -/
def SEQ_MAX_CAPLEN : Nat := 262144

/-- `BUFSIZ`, the size of the receive buffer. -/
def BUFSIZ : Nat := 8192

/-- `packetCache`: a captured frame. -/
structure PacketCache where
  data : Bytes
  tsMs : Int
  deriving DecidableEq

/-- A frame of a length that the readers admit. -/
def PacketCache.Admitted (pc : PacketCache) : Prop :=
  0 < pc.data.length ∧ pc.data.length ≤ SEQ_MAX_CAPLEN

/-- `PacketCaptureProviderThread`. -/
structure PacketQueue where
  cache : List PacketCache
  closed : Bool
  lastCaptureMs : Int

namespace PacketQueue

/-- The queue of a capture that has started. -/
def opened : PacketQueue := { cache := [], closed := false, lastCaptureMs := 0 }

/-- `enqueue`. -/
def enqueue (q : PacketQueue) (pc : PacketCache) : PacketQueue :=
  if q.closed then q else { q with cache := q.cache ++ [pc] }

/-- `getPacket`: the length, the bytes it copies, and the queue after it. -/
def getPacket (q : PacketQueue) : UInt16 × Bytes × PacketQueue :=
  match q.cache with
  | [] => (0, [], q)
  | pc :: rest =>
      let ret := UInt16.ofNat pc.data.length
      (ret, pc.data.take ret.toNat, { q with cache := rest, lastCaptureMs := pc.tsMs })

end PacketQueue

/-- What one turn of the loop of `processPackets` sees of a frame. -/
structure SeenFrame where
  size : Int16
  buffer : Bytes
  tsMs : Int
  deriving DecidableEq

/-- The capture thread's queue and the decoder that drains it. What was put into the queue, how
many bytes were copied, and what was left when a drain ended is kept as history.
-/
structure Capture where
  queue : PacketQueue
  busyDecoding : Bool
  seen : List SeenFrame
  enqueued : List PacketCache
  copies : List Nat
  leftovers : List Nat

/-- The capture thread enqueues, the timer starts a drain, and the drain takes its turns. -/
inductive CaptureOp
  | enqueue (pc : PacketCache) (admitted : pc.Admitted)
  | processPackets
  | getPacket

namespace Capture

/-- A capture that has started. -/
def started : Capture :=
  { queue := .opened, busyDecoding := false, seen := [], enqueued := [], copies := []
    leftovers := [] }

/-- A frame put into an open queue. -/
def enqueue (c : Capture) (pc : PacketCache) : Capture :=
  { c with queue := c.queue.enqueue pc, enqueued := c.enqueued ++ [pc] }

/-- One turn of the loop of `processPackets`, which ends on a zero size. -/
def getPacket (c : Capture) : Capture :=
  if !c.busyDecoding then c
  else
    let (ret, buffer, queue) := c.queue.getPacket
    let size := ret.toInt16
    let copied := { c with queue, copies := c.copies ++ [buffer.length] }
    if size = 0 then
      { copied with busyDecoding := false, leftovers := c.leftovers ++ [c.queue.cache.length] }
    else
      { copied with seen := c.seen ++ [{ size, buffer, tsMs := queue.lastCaptureMs }] }

/-- One step of the run. -/
def step : CaptureOp → Capture → Capture
  | .enqueue pc _, c => c.enqueue pc
  | .processPackets, c => { c with busyDecoding := true }
  | .getPacket, c => c.getPacket

/-- The size, the bytes and the time that a turn was given. -/
def given (v : SeenFrame) : Int × Bytes × Int := (v.size.toInt, v.buffer, v.tsMs)

/-- Those that a frame has. -/
def whole (pc : PacketCache) : Int × Bytes × Int := (pc.data.length, pc.data, pc.tsMs)

/-- Every frame was seen once, in order and in full, or still waits in the queue; no drain ended
before the queue was empty; and no copy was longer than the buffer.
-/
structure Intact (c : Capture) : Prop where
  frames
    : ∃ taken, c.enqueued = taken ++ c.queue.cache ∧ c.seen.map given = taken.map whole
  drained : ∀ left ∈ c.leftovers, left = 0
  bounded : ∀ n ∈ c.copies, n ≤ BUFSIZ

/-- The frame that a turn takes fits the receive buffer. -/
def FitsBuffer (c : Capture) : CaptureOp → Prop
  | .getPacket =>
      c.busyDecoding = true → ∀ pc ∈ c.queue.cache.head?, pc.data.length ≤ BUFSIZ
  | _ => True

-----------------------------------------------------------------------------------------
-- One turn
-----------------------------------------------------------------------------------------

variable {c : Capture}

/-- A length the buffer holds comes out as it went in. -/
theorem toInt16_ofNat {n : Nat} (fits : n ≤ BUFSIZ)
    : (UInt16.ofNat n).toNat = n ∧ (UInt16.ofNat n).toInt16.toInt = n := by
  have small : n < 2 ^ 15 := lt_of_le_of_lt fits (by decide)
  have same : (UInt16.ofNat n).toNat = n := by
    rw [UInt16.toNat_ofNat']
    exact Nat.mod_eq_of_lt (by omega)
  have bits : (UInt16.ofNat n).toInt16.toInt = (UInt16.ofNat n).toBitVec.toInt := rfl
  refine ⟨same, ?_⟩
  rw [bits, BitVec.toInt_eq_toNat_of_lt (by rw [UInt16.toNat_toBitVec, same]; omega),
    UInt16.toNat_toBitVec, same]

/-- What is always so: the queue is open and holds admitted frames, those taken from it were the
first ones, and no more than these were seen.
-/
structure History (c : Capture) : Prop where
  open_ : c.queue.closed = false
  admitted : ∀ pc ∈ c.queue.cache, pc.Admitted
  taken : ∃ taken, c.enqueued = taken ++ c.queue.cache ∧ c.seen.length ≤ taken.length

/-- A turn of an idle decoder is none. -/
theorem getPacket_idle (idle : c.busyDecoding = false) : c.getPacket = c := by
  simp [getPacket, idle]

/-- A turn that finds nothing ends the drain. -/
theorem getPacket_nil (busy : c.busyDecoding = true) (empty : c.queue.cache = [])
    : c.getPacket
      = { c with
          busyDecoding := false
          copies := c.copies ++ [0]
          leftovers := c.leftovers ++ [0] } := by
  simp [getPacket, busy, PacketQueue.getPacket, empty]

/-- The size that a turn reads for a frame. -/
def sizeOf (pc : PacketCache) : Int16 := (UInt16.ofNat pc.data.length).toInt16

/-- The bytes that it copies. -/
def copyOf (pc : PacketCache) : Bytes := pc.data.take (UInt16.ofNat pc.data.length).toNat

theorem getPacket_cons (busy : c.busyDecoding = true) {pc : PacketCache}
    {rest : List PacketCache} (next : c.queue.cache = pc :: rest)
    : c.getPacket
      = if sizeOf pc = 0 then
          { c with
            queue := { c.queue with cache := rest, lastCaptureMs := pc.tsMs }
            busyDecoding := false
            copies := c.copies ++ [(copyOf pc).length]
            leftovers := c.leftovers ++ [rest.length + 1] }
        else
          { c with
            queue := { c.queue with cache := rest, lastCaptureMs := pc.tsMs }
            copies := c.copies ++ [(copyOf pc).length]
            seen := c.seen ++ [{ size := sizeOf pc, buffer := copyOf pc, tsMs := pc.tsMs }] } := by
  simp [getPacket, busy, PacketQueue.getPacket, next, sizeOf, copyOf]

theorem History.step (history : c.History) (op : CaptureOp) : (Capture.step op c).History := by
  obtain ⟨isOpen, admitted, taken, enqueued, seen⟩ := history
  cases op with
  | enqueue pc fits =>
      refine ⟨?_, fun x member => ?_, taken, ?_, seen⟩
      · simp [Capture.step, Capture.enqueue, PacketQueue.enqueue, isOpen]
      · simp only [Capture.step, Capture.enqueue, PacketQueue.enqueue, isOpen, Bool.false_eq_true,
          if_false] at member
        rcases List.mem_append.mp member with old | new
        · exact admitted x old
        · exact List.mem_singleton.mp new ▸ fits
      · simp [Capture.step, Capture.enqueue, PacketQueue.enqueue, isOpen, enqueued]
  | processPackets => exact ⟨isOpen, admitted, taken, enqueued, seen⟩
  | getPacket =>
      simp only [Capture.step]
      cases busy : c.busyDecoding with
      | false =>
          rw [getPacket_idle busy]
          exact ⟨isOpen, admitted, taken, enqueued, seen⟩
      | true =>
          cases next : c.queue.cache with
          | nil =>
              rw [getPacket_nil busy next]
              exact ⟨isOpen, admitted, taken, enqueued, seen⟩
          | cons pc rest =>
              have more : c.enqueued = (taken ++ [pc]) ++ rest := by
                rw [enqueued, next, List.append_assoc]
                rfl
              have others : ∀ x ∈ rest, x.Admitted := fun x member =>
                admitted x (next ▸ List.mem_cons_of_mem pc member)
              rw [getPacket_cons busy next]
              split
              · refine ⟨isOpen, others, taken ++ [pc], more, ?_⟩
                simp only [List.length_append, List.length_singleton]
                omega
              · refine ⟨isOpen, others, taken ++ [pc], more, ?_⟩
                simp only [List.length_append, List.length_singleton]
                omega

/-- A frame that fits is seen whole, and no other is. -/
theorem given_iff {pc : PacketCache} (admitted : pc.Admitted)
    : (sizeOf pc ≠ 0
        ∧ given { size := sizeOf pc, buffer := copyOf pc, tsMs := pc.tsMs } = whole pc
        ∧ (copyOf pc).length ≤ BUFSIZ)
      ↔ pc.data.length ≤ BUFSIZ := by
  constructor
  · rintro ⟨_, same, short⟩
    have buffer : copyOf pc = pc.data := congrArg (fun view => view.2.1) same
    rwa [buffer] at short
  · intro fits
    obtain ⟨length, size⟩ := toInt16_ofNat fits
    have buffer : copyOf pc = pc.data := by
      rw [copyOf, length, List.take_length]
    refine ⟨fun zero => ?_, ?_, buffer ▸ fits⟩
    · rw [sizeOf] at zero
      rw [zero] at size
      have nonempty := admitted.1
      have none : ((0 : Int16).toInt) = 0 := rfl
      omega
    · simp only [given, whole, buffer, sizeOf, size]

/-- What a turn adds to the history, taken off again. -/
theorem Intact.before {after : Capture} {taken : List PacketCache} (intact : after.Intact)
    (enqueued : c.enqueued = taken ++ c.queue.cache)
    (seen : c.seen.map given = taken.map whole) (copies : ∀ n ∈ c.copies, n ∈ after.copies)
    (leftovers : ∀ left ∈ c.leftovers, left ∈ after.leftovers)
    : c.Intact :=
  ⟨⟨taken, enqueued, seen⟩, fun left member => intact.drained left (leftovers left member),
    fun n member => intact.bounded n (copies n member)⟩

/-- A turn that finds a frame. -/
theorem History.intact_cons_iff (history : c.History) (busy : c.busyDecoding = true)
    {pc : PacketCache} {rest : List PacketCache} (next : c.queue.cache = pc :: rest)
    : c.getPacket.Intact ↔ c.Intact ∧ pc.data.length ≤ BUFSIZ := by
  obtain ⟨_, admitted, taken, enqueued, few⟩ := history
  have more : c.enqueued = (taken ++ [pc]) ++ rest := by
    rw [enqueued, next, List.append_assoc]
    rfl
  rw [getPacket_cons busy next, ← given_iff (admitted pc (next ▸ List.mem_cons_self))]
  split
  · rename_i zero
    refine iff_of_false (fun intact => ?_) fun held => held.2.1 zero
    -- the frame was taken, but nothing was seen
    obtain ⟨others, same, seen⟩ := intact.frames
    have others_eq : taken ++ [pc] = others := List.append_cancel_right (more.symm.trans same)
    have lengths := congrArg List.length seen
    simp only [← others_eq, List.length_map, List.length_append, List.length_singleton] at lengths
    omega
  · rename_i nonzero
    constructor
    · intro intact
      obtain ⟨others, same, seen⟩ := intact.frames
      have others_eq : taken ++ [pc] = others := List.append_cancel_right (more.symm.trans same)
      simp only [← others_eq, List.map_append, List.map_cons, List.map_nil] at seen
      obtain ⟨earlier, last⟩ := List.append_inj' seen rfl
      refine ⟨intact.before enqueued earlier (fun n => List.mem_append_left _) fun _ => id, ?_⟩
      refine ⟨nonzero, List.head_eq_of_cons_eq last, intact.bounded _ ?_⟩
      exact List.mem_append_right _ (List.mem_singleton_self _)
    · rintro ⟨intact, _, view, short⟩
      obtain ⟨others, same, seen⟩ := intact.frames
      have others_eq : taken = others := List.append_cancel_right (enqueued.symm.trans same)
      refine ⟨⟨taken ++ [pc], more, ?_⟩, intact.drained, fun n member => ?_⟩
      · simp only [List.map_append, List.map_cons, List.map_nil, view, seen, others_eq]
      · rcases List.mem_append.mp member with old | new
        · exact intact.bounded n old
        · rwa [List.mem_singleton.mp new]

/-- One step more is intact exactly when the frame it takes fits. -/
theorem History.intact_step_iff (history : c.History) (op : CaptureOp)
    : (Capture.step op c).Intact ↔ c.Intact ∧ c.FitsBuffer op := by
  cases op with
  | enqueue pc fits =>
      have cache : (c.queue.enqueue pc).cache = c.queue.cache ++ [pc] := by
        simp [PacketQueue.enqueue, history.open_]
      refine Iff.trans ?_ (and_iff_left trivial).symm
      constructor
      · rintro ⟨⟨taken, enqueued, seen⟩, drained, bounded⟩
        simp only [Capture.step, Capture.enqueue, cache, ← List.append_assoc] at enqueued
        exact ⟨⟨taken, List.append_cancel_right enqueued, seen⟩, drained, bounded⟩
      · rintro ⟨⟨taken, enqueued, seen⟩, drained, bounded⟩
        refine ⟨⟨taken, ?_, seen⟩, drained, bounded⟩
        simp only [Capture.step, Capture.enqueue, cache, enqueued, List.append_assoc]
  | processPackets =>
      refine Iff.trans ?_ (and_iff_left trivial).symm
      exact ⟨fun ⟨frames, drained, bounded⟩ => ⟨frames, drained, bounded⟩,
        fun ⟨frames, drained, bounded⟩ => ⟨frames, drained, bounded⟩⟩
  | getPacket =>
      simp only [Capture.step, FitsBuffer]
      cases busy : c.busyDecoding with
      | false =>
          rw [getPacket_idle busy]
          simp
      | true =>
          cases next : c.queue.cache with
          | nil =>
              rw [getPacket_nil busy next]
              simp only [List.head?_nil, Option.mem_def, reduceCtorEq, false_implies, implies_true,
                and_true]
              constructor
              · intro intact
                obtain ⟨taken, enqueued, seen⟩ := intact.frames
                exact intact.before enqueued seen (fun n => List.mem_append_left _)
                  fun left => List.mem_append_left _
              · intro intact
                refine ⟨intact.frames, fun left member => ?_, fun n member => ?_⟩
                · rcases List.mem_append.mp member with old | new
                  · exact intact.drained left old
                  · exact List.mem_singleton.mp new
                · rcases List.mem_append.mp member with old | new
                  · exact intact.bounded n old
                  · exact List.mem_singleton.mp new ▸ Nat.zero_le _
          | cons pc rest =>
              rw [history.intact_cons_iff busy next]
              simp

-----------------------------------------------------------------------------------------
-- Runs
-----------------------------------------------------------------------------------------

theorem History.intact_exec_iff (history : c.History) (ops : List CaptureOp)
    : (Machine.exec Capture.step c ops).Intact
      ↔ c.Intact ∧ Machine.Permits Capture.step FitsBuffer c ops := by
  induction ops generalizing c with
  | nil => exact (and_iff_left trivial).symm
  | cons op rest ih =>
      refine (ih (history.step op)).trans ?_
      rw [history.intact_step_iff op, and_assoc]
      rfl

theorem history_started : started.History where
  open_ := rfl
  admitted _ member := nomatch member
  taken := ⟨[], rfl, Nat.le_refl _⟩

theorem intact_started : started.Intact where
  frames := ⟨[], rfl, rfl⟩
  drained _ member := nomatch member
  bounded _ member := nomatch member

/-- Whatever is enqueued and however enqueuing and draining interleave, the consumer sees every
frame once, in order and in full, drains the queue to its end and copies no more than the buffer
holds exactly when every frame that a turn takes is at most `BUFSIZ` long.
-/
theorem intact_iff (ops : List CaptureOp)
    : (Machine.exec Capture.step started ops).Intact
      ↔ Machine.Permits Capture.step FitsBuffer started ops :=
  (history_started.intact_exec_iff ops).trans (and_iff_right intact_started)

/-- A frame of 65536 bytes ends the drain with nothing seen, although another one waits. -/
theorem not_intact_jumbo
    : ¬ (∀ ops, (Machine.exec Capture.step started ops).Intact) := by
  intro intact
  obtain ⟨jumbo, length⟩ : ∃ pc : PacketCache, pc.data.length = 65536 :=
    ⟨{ data := List.replicate 65536 0, tsMs := 0 }, List.length_replicate⟩
  have admitted : jumbo.Admitted := by
    rw [PacketCache.Admitted, length]
    decide
  have zero : sizeOf jumbo = 0 := by
    rw [sizeOf, length]
    rfl
  have drained := (intact [.enqueue jumbo admitted, .enqueue jumbo admitted, .processPackets,
    .getPacket]).drained
  have next
      : (Machine.exec Capture.step started
          [.enqueue jumbo admitted, .enqueue jumbo admitted, .processPackets]).queue.cache
        = jumbo :: [jumbo] := rfl
  have turn := getPacket_cons (c := Machine.exec Capture.step started
    [.enqueue jumbo admitted, .enqueue jumbo admitted, .processPackets]) rfl next
  rw [if_pos zero] at turn
  have left := drained 2
  simp only [Machine.exec, Capture.step] at left turn
  rw [turn] at left
  exact absurd (left (List.mem_singleton_self _)) (by decide)

end Capture
end Scry
