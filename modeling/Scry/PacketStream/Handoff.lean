import Scry.PacketStream.TwoRuns

/-! A stream handed over to another process.
What is exported has the session in it, and neither the cache nor the fragment buffer. A stream
that holds nothing in either goes on in the other process as it would have here, up to the storage
its buffer keeps.
-/

namespace Scry
namespace EQPacketStream

variable {context : StreamContext} {streamid : EQStreamID} {dir : UInt8} {arqSeqGiveUp : UInt16}
  {s : EQPacketStream}

/-- `EQPacketStream::StreamHandoff`. -/
structure StreamHandoff where
  sessionId : UInt32
  sessionKey : UInt32
  clientIP : UInt32
  clientPort : UInt16
  maxLength : UInt32
  arqSeqExp : UInt16
  deriving DecidableEq

def exportState (s : EQPacketStream) : StreamHandoff :=
  { sessionId := s.sessionId
    sessionKey := s.sessionKey
    clientIP := s.sessionClientIP
    clientPort := s.sessionClientPort
    maxLength := s.maxLength
    arqSeqExp := s.arqSeqExp }

def importState (s : EQPacketStream) (h : StreamHandoff) : EQPacketStream :=
  { s with
    sessionId := h.sessionId
    sessionKey := h.sessionKey
    sessionClientIP := h.clientIP
    sessionClientPort := h.clientPort
    maxLength := h.maxLength
    arqSeqExp := h.arqSeqExp }

-----------------------------------------------------------------------------------------
-- The stream in the other process
-----------------------------------------------------------------------------------------

/-- The imported stream is the exported one with an unallocated buffer. -/
theorem importState_exportState (constructed : Constructed context streamid dir arqSeqGiveUp s)
    (outside : s.replaying = none) (nothing : s.HoldsNothing)
    : (fresh streamid dir arqSeqGiveUp context.sessionTracking).importState s.exportState
      = { s with fragment := .fresh } := by
  obtain ⟨rfl, rfl, rfl, tracking, _, _⟩ := constructed
  obtain ⟨streamid, dir, sessionTracking, cache, arqSeqExp, arqSeqGiveUp, fragment, sessionId,
    sessionKey, port, ip, maxLength, replaying⟩ := s
  obtain ⟨rfl, _⟩ := nothing
  subst outside tracking
  rfl

/-- The other process goes on where this one was cut: it is a fresh stream that imports what was
exported between the two parts of a run, and dispatches the messages of the second part.
-/
def HandoffInvisible (context : StreamContext) (streamid : EQStreamID) (dir : UInt8)
    (arqSeqGiveUp : UInt16) (fuel : Nat) (before rest : List Arrival)
    : Prop :=
  ∀ s w₀ t w,
    run context fuel before (fresh streamid dir arqSeqGiveUp context.sessionTracking)
        = .ok ((), s, w₀) →
    run context fuel rest s = .ok ((), t, w) →
    ∃ t' v,
      run context fuel rest
          ((fresh streamid dir arqSeqGiveUp context.sessionTracking).importState s.exportState)
        = .ok ((), t', v)
      ∧ messages v = messages w

/-- At the cut the stream holds nothing; and if its buffer was allocated by then, what is read
of a packet in the rest of the run lies inside it.
-/
def SparesHandoff (context : StreamContext) (streamid : EQStreamID) (dir : UInt8)
    (arqSeqGiveUp : UInt16) (fuel : Nat) (before rest : List Arrival)
    : Prop :=
  ∀ s w₀ t w,
    run context fuel before (fresh streamid dir arqSeqGiveUp context.sessionTracking)
        = .ok ((), s, w₀) →
    run context fuel rest s = .ok ((), t, w) →
    s.HoldsNothing ∧ (s.fragment.dataAllocSize = 0 ∨ ∀ e ∈ w, KeepsToItself e)

/-- The packet came in whole and is no fragment. -/
def isWholeMessage : StreamEvent → Bool
  | .processing _ packet => packet.netOp != OP_Oversized && !packet.subpacket
  | _ => true

theorem keepsToItself_of_isWholeMessage {e : StreamEvent} (whole : isWholeMessage e = true)
    : KeepsToItself e := by
  cases e with
  | processing s packet =>
      simp only [isWholeMessage, Bool.and_eq_true, bne_iff_ne, Bool.not_eq_true'] at whole
      simp [KeepsToItself, FragmentFits, whole]
  | _ => trivial

/-- A message in two fragments, and one in a packet. -/
def fragmentsThenMessage : List Arrival :=
  [responseArrival, sequencedArrival 0x0d 0 [0, 0, 0, 4, 0x05, 0x06],
    sequencedArrival 0x0d 1 [1, 2], messageArrival 2]

end EQPacketStream
end Scry
