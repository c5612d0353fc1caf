import Scry.PacketStream.TwoRuns

/-! What a new session inherits from the ones before it on the same stream.
A session request or response sets the session's fields and the expected number, and leaves the
cache and the fragment buffer as they are. A stream that holds nothing in them starts the new
session like any other.
-/

namespace Scry
namespace EQPacketStream

variable {context : StreamContext} {streamid : EQStreamID} {dir : UInt8} {arqSeqGiveUp : UInt16}
  {header : IPHeader} {datagram : Bytes} {s t : EQPacketStream}

/-- The calls a session starts with: the server's response, which has the key in it, or the
client's request, after which the other stream hands the key on.
-/
inductive StartsSession (streamid : EQStreamID) (header : IPHeader) : List Arrival → Prop
  | response {datagram : Bytes} (opcode : eqtohuint16 datagram = OP_SessionResponse)
    (size : datagram.length = 21)
    : StartsSession streamid header [.packet header datagram]
  | request {datagram : Bytes} (opcode : eqtohuint16 datagram = OP_SessionRequest)
    (size : datagram.length = 24) {sender : EQStreamID} (other : sender ≠ streamid)
    (key : UInt32)
    : StartsSession streamid header
        [.packet header datagram, .sessionKey (eqntohuint32 (datagram.drop 6)) sender key]

-----------------------------------------------------------------------------------------
-- How a session starts
-----------------------------------------------------------------------------------------

/-- A session packet of the latched client passes the gates whatever the key is. -/
theorem accept_session (own : s.latchedElsewhere header = false)
    (opcode
      : eqtohuint16 datagram = OP_SessionRequest ∨ eqtohuint16 datagram = OP_SessionResponse)
    : accept context s header (.ofDatagram datagram) = some (.ofDatagram datagram) := by
  have unframed : isFramedOpCode (eqtohuint16 datagram) = false := by
    rcases opcode with kind | kind <;> rw [kind] <;> decide
  have awaited : s.awaitsSession (.ofDatagram datagram) = false := by
    rw [EQProtocolPacket.ofDatagram_unframed unframed]
    rcases opcode with kind | kind <;> simp [awaitsSession, kind]
  simp only [accept, awaited, own, Bool.false_eq_true, if_false]
  simp [EQProtocolPacket.ofDatagram_unframed unframed, EQProtocolPacket.hasCRC, unframed,
    EQProtocolPacket.passesCRC, EQProtocolPacket.decode]

/-- With an empty cache a packet is all that is processed. -/
theorem handlePacket_uncached {fuel : Nat} {packet : EQProtocolPacket} {w : List StreamEvent}
    (accepted : accept context s header (.ofDatagram datagram) = some packet)
    (processed
      : processNetOpCode context (fun inner => processPacket context fuel inner none) packet
          (some header) s
        = .ok ((), t, w))
    (empty : t.cache = .empty)
    : handlePacket context (fuel + 1) header datagram s
      = .ok ((), t, .processing s packet :: w) := by
  refine handlePacket_eq_ok.mpr (.inr ⟨packet, t, .processing s packet :: w, [], accepted, ?_, ?_,
    (List.append_nil _).symm⟩)
  · rw [processPacket, Traced.get_bind_run, Traced.emit_bind_run, processed]
  · rw [Traced.when_neg (by rw [empty]; decide)]
    rfl

/-- The stream a session starts with: as it was constructed, with what the session packet says,
and with the client's side where sessions are tracked.
-/
def started (context : StreamContext) (streamid : EQStreamID) (dir : UInt8) (arqSeqGiveUp : UInt16)
    (sessionId sessionKey maxLength : UInt32) (port : UInt16) (ip : UInt32)
    : EQPacketStream :=
  { fresh streamid dir arqSeqGiveUp context.sessionTracking with
    sessionId, sessionKey, maxLength
    sessionClientPort := if context.sessionTracking then port else 0
    sessionClientIP := if context.sessionTracking then ip else 0 }

/-- Nothing but the fragment buffer is left of the sessions before. -/
theorem started_eq (constructed : Constructed context streamid dir arqSeqGiveUp s)
    (outside : s.replaying = none) (empty : s.cache = .empty) (fields : EQPacketStream)
    {sessionId sessionKey maxLength : UInt32}
    (reads : fields = { s with arqSeqExp := 0, sessionId, sessionKey, maxLength }) (port : UInt16)
    (ip : UInt32)
    : (if s.sessionTracking then fields.latched port ip else fields)
      = { started context streamid dir arqSeqGiveUp sessionId sessionKey maxLength port ip with
          fragment := s.fragment } := by
  obtain ⟨rfl, rfl, rfl, tracking, latch, _⟩ := constructed
  obtain ⟨streamid, dir, sessionTracking, cache, arqSeqExp, arqSeqGiveUp, fragment, sessionId',
    sessionKey', port', ip', maxLength', replaying⟩ := s
  subst outside empty reads
  simp only at tracking latch
  subst tracking
  cases tracked : context.sessionTracking with
  | true => simp only [started, tracked, latched, fresh, if_true]
  | false =>
      obtain ⟨rfl, rfl⟩ := latch tracked
      simp only [started, tracked, fresh, Bool.false_eq_true, if_false]

/-- A session packet whose stream has nothing cached is all that is processed, whatever fields it
sets, and the stream is latched where sessions are tracked.
-/
theorem handlePacket_session {fuel : Nat} {fields : EQPacketStream} {port : UInt16} {ip : UInt32}
    {w : List StreamEvent} (own : s.latchedElsewhere header = false)
    (opcode
      : eqtohuint16 datagram = OP_SessionRequest ∨ eqtohuint16 datagram = OP_SessionResponse)
    (processed
      : ∀ inner, processNetOpCode context inner (.ofDatagram datagram) (some header) s
        = .ok ((), if s.sessionTracking then fields.latched port ip else fields, w))
    (empty : fields.cache = .empty)
    : handlePacket context (fuel + 1) header datagram s
      = .ok ((), if s.sessionTracking then fields.latched port ip else fields,
          .processing s (.ofDatagram datagram) :: w) := by
  refine handlePacket_uncached (accept_session own opcode) (processed _) ?_
  split <;> exact empty

theorem processNetOpCode_response {packet : EQProtocolPacket} {seen : Option IPHeader}
    (inner : EQProtocolPacket → StreamM Unit) (kind : packet.netOp = OP_SessionResponse)
    : processNetOpCode context inner packet seen = processSessionResponse packet seen := by
  have other : IS_APP_OPCODE OP_SessionResponse = false
      ∧ OP_SessionResponse ≠ OP_Combined ∧ OP_SessionResponse ≠ OP_AppCombined
      ∧ OP_SessionResponse ≠ OP_Packet ∧ OP_SessionResponse ≠ OP_Oversized
      ∧ OP_SessionResponse ≠ OP_SessionRequest := by
    decide
  simp only [processNetOpCode, kind, other, Bool.false_eq_true, if_false, if_true]

theorem processNetOpCode_request {packet : EQProtocolPacket} {seen : Option IPHeader}
    (inner : EQProtocolPacket → StreamM Unit) (kind : packet.netOp = OP_SessionRequest)
    : processNetOpCode context inner packet seen = processSessionRequest packet seen := by
  have other : IS_APP_OPCODE OP_SessionRequest = false
      ∧ OP_SessionRequest ≠ OP_Combined ∧ OP_SessionRequest ≠ OP_AppCombined
      ∧ OP_SessionRequest ≠ OP_Packet ∧ OP_SessionRequest ≠ OP_Oversized := by
    decide
  simp only [processNetOpCode, kind, other, Bool.false_eq_true, if_false, if_true]

theorem response_run (fuel : Nat) (constructed : Constructed context streamid dir arqSeqGiveUp s)
    (outside : s.replaying = none) (empty : s.cache = .empty)
    (own : s.latchedElsewhere header = false) (opcode : eqtohuint16 datagram = OP_SessionResponse)
    (size : datagram.length = 21)
    : ∃ w,
        handlePacket context (fuel + 1) header datagram s
          = .ok ((),
              { started context streamid dir arqSeqGiveUp
                  (eqntohuint32 (datagram.drop 2)) (eqntohuint32 (datagram.drop 6))
                  (clampLength (eqntohuint32 (datagram.drop 13))) header.destPort header.destIP with
                fragment := s.fragment },
              w)
        ∧ messages w = [] := by
  have unframed : isFramedOpCode (eqtohuint16 datagram) = false := by
    rw [opcode]
    decide
  have layout := EQProtocolPacket.ofDatagram_unframed unframed
  rw [← started_eq constructed outside empty (s.responded (.ofDatagram datagram))
    (by simp [responded, layout])]
  have kind : (EQProtocolPacket.ofDatagram datagram).netOp = OP_SessionResponse := by
    rw [layout, opcode]
  have whole : (EQProtocolPacket.ofDatagram datagram).payloadLength = sessionResponseSize := by
    rw [layout, size]
    exact (by decide : UInt32.ofNat 21 - 2 = sessionResponseSize)
  have processed (inner : EQProtocolPacket → StreamM Unit)
      : processNetOpCode context inner (.ofDatagram datagram) (some header) s
        = .ok ((),
            if s.sessionTracking then
              (s.responded (.ofDatagram datagram)).latched header.destPort header.destIP
            else s.responded (.ofDatagram datagram),
            [.sessionKey (s.responded (.ofDatagram datagram)).sessionId s.streamid
              (s.responded (.ofDatagram datagram)).sessionKey]) := by
    rw [processNetOpCode_response inner kind, processSessionResponse, Traced.when_pos whole]
    simp only [Traced.get_bind_run, Traced.modify_bind_run, Traced.emit_bind_run]
    cases s.sessionTracking <;> rfl
  exact ⟨_, handlePacket_session own (.inr opcode) processed empty, rfl⟩

theorem request_run (fuel : Nat) (constructed : Constructed context streamid dir arqSeqGiveUp s)
    (outside : s.replaying = none) (empty : s.cache = .empty)
    (own : s.latchedElsewhere header = false) (opcode : eqtohuint16 datagram = OP_SessionRequest)
    (size : datagram.length = 24)
    : ∃ w,
        handlePacket context (fuel + 1) header datagram s
          = .ok ((),
              { started context streamid dir arqSeqGiveUp (eqntohuint32 (datagram.drop 6))
                  s.sessionKey (clampLength (eqntohuint32 (datagram.drop 10))) header.sourcePort
                  header.sourceIP with
                fragment := s.fragment },
              w)
        ∧ messages w = [] := by
  have unframed : isFramedOpCode (eqtohuint16 datagram) = false := by
    rw [opcode]
    decide
  have layout := EQProtocolPacket.ofDatagram_unframed unframed
  rw [← started_eq constructed outside empty (s.requested (.ofDatagram datagram))
    (by simp [requested, layout])]
  have kind : (EQProtocolPacket.ofDatagram datagram).netOp = OP_SessionRequest := by
    rw [layout, opcode]
  have whole : (EQProtocolPacket.ofDatagram datagram).payloadLength = sessionRequestSize := by
    rw [layout, size]
    exact (by decide : UInt32.ofNat 24 - 2 = sessionRequestSize)
  have processed (inner : EQProtocolPacket → StreamM Unit)
      : processNetOpCode context inner (.ofDatagram datagram) (some header) s
        = .ok ((),
            if s.sessionTracking then
              (s.requested (.ofDatagram datagram)).latched header.sourcePort header.sourceIP
            else s.requested (.ofDatagram datagram),
            []) := by
    rw [processNetOpCode_request inner kind, processSessionRequest, Traced.when_pos whole]
    simp only [Traced.get_bind_run, Traced.modify_bind_run]
    cases s.sessionTracking <;> rfl
  exact ⟨_, handlePacket_session own (.inl opcode) processed empty, rfl⟩

/-- Streams with nothing in their caches start a session alike, up to their fragment buffers. -/
theorem start_run (context : StreamContext) (dir : UInt8) (arqSeqGiveUp : UInt16) (fuel : Nat)
    {start : List Arrival} (starts : StartsSession streamid header start)
    : ∃ u : EQPacketStream,
        ∀ s, Constructed context streamid dir arqSeqGiveUp s → s.replaying = none →
          s.cache = .empty → s.latchedElsewhere header = false →
          ∃ w,
            run context (fuel + 1) start s = .ok ((), { u with fragment := s.fragment }, w)
              ∧ messages w = [] := by
  cases starts with
  | response opcode size =>
      rename_i datagram
      refine ⟨started context streamid dir arqSeqGiveUp (eqntohuint32 (datagram.drop 2))
        (eqntohuint32 (datagram.drop 6)) (clampLength (eqntohuint32 (datagram.drop 13)))
        header.destPort header.destIP, fun s constructed outside empty own => ?_⟩
      obtain ⟨w, handled, silent⟩ :=
        response_run fuel constructed outside empty own opcode size
      refine ⟨w ++ [], ?_, by rw [List.append_nil, silent]⟩
      exact Traced.bind_eq_ok.mpr ⟨(), _, w, [], handled, rfl, rfl⟩
  | request opcode size other key =>
      rename_i datagram sender
      refine ⟨started context streamid dir arqSeqGiveUp (eqntohuint32 (datagram.drop 6)) key
        (clampLength (eqntohuint32 (datagram.drop 10))) header.sourcePort header.sourceIP,
        fun s constructed outside empty own => ?_⟩
      obtain ⟨w, handled, silent⟩ :=
        request_run fuel constructed outside empty own opcode size
      refine ⟨w ++ ([] ++ []), ?_, by rw [List.append_nil, List.append_nil, silent]⟩
      refine Traced.bind_eq_ok.mpr ⟨(), _, w, [] ++ [], handled, ?_, rfl⟩
      refine Traced.bind_eq_ok.mpr ⟨(), _, [], [], rfl, ?_, rfl⟩
      rw [receiveSessionKey, if_pos ⟨other, rfl⟩]
      rfl

-----------------------------------------------------------------------------------------
-- Two histories before one session
-----------------------------------------------------------------------------------------

theorem run_append {fuel : Nat} {first second : List Arrival} {u : EQPacketStream}
    {w : List StreamEvent}
    : run context fuel (first ++ second) s = .ok ((), u, w)
      ↔ ∃ t early late,
          run context fuel first s = .ok ((), t, early)
            ∧ run context fuel second t = .ok ((), u, late)
            ∧ w = early ++ late := by
  induction first generalizing s w with
  | nil =>
      constructor
      · exact fun completed => ⟨s, [], w, rfl, completed, rfl⟩
      · rintro ⟨_, _, _, nothing, completed, rfl⟩
        cases nothing
        exact completed
  | cons arrival first ih =>
      constructor
      · intro completed
        obtain ⟨_, t, head, tail, arrived, following, rfl⟩ := Traced.bind_eq_ok.mp completed
        obtain ⟨v, early, late, onward, last, rfl⟩ := ih.mp following
        refine ⟨v, head ++ early, late, ?_, last, (List.append_assoc ..).symm⟩
        exact Traced.bind_eq_ok.mpr ⟨(), t, head, early, arrived, onward, rfl⟩
      · rintro ⟨v, _, late, through, completed, rfl⟩
        obtain ⟨_, t, head, early, arrived, onward, rfl⟩ := Traced.bind_eq_ok.mp through
        rw [List.append_assoc]
        exact Traced.bind_eq_ok.mpr
          ⟨(), t, head, early ++ late, arrived, ih.mpr ⟨v, early, late, onward, completed, rfl⟩, rfl⟩

/-- A session packet is processed at all. -/
theorem not_run_zero {start rest : List Arrival} (starts : StartsSession streamid header start)
    (own : s.latchedElsewhere header = false) {w : List StreamEvent}
    (completed : run context 0 (start ++ rest) s = .ok ((), t, w))
    : False := by
  have processed {datagram : Bytes} {later : List Arrival}
      (opcode
        : eqtohuint16 datagram = OP_SessionRequest ∨ eqtohuint16 datagram = OP_SessionResponse)
      (completed : run context 0 (.packet header datagram :: later) s = .ok ((), t, w))
      : False := by
    obtain ⟨_, _, _, _, handled, _⟩ := Traced.bind_eq_ok.mp completed
    rcases handlePacket_eq_ok.mp handled with ⟨dropped, _⟩ | ⟨_, _, _, _, _, run, _⟩
    · rw [accept_session own opcode] at dropped
      cases dropped
    · cases run
  cases starts with
  | response opcode => exact processed (.inr opcode) completed
  | request opcode => exact processed (.inl opcode) completed

/-- The calls before a session packet that the stream takes in leave no mark on the messages it
dispatches from then on: it makes no difference which of two histories came before.
-/
def SessionIsolated (context : StreamContext) (streamid : EQStreamID) (dir : UInt8)
    (arqSeqGiveUp : UInt16) (fuel : Nat) (header : IPHeader)
    (before before' start rest : List Arrival)
    : Prop :=
  ∀ s w s' w' t v,
    run context fuel before (fresh streamid dir arqSeqGiveUp context.sessionTracking)
        = .ok ((), s, w) →
    run context fuel before' (fresh streamid dir arqSeqGiveUp context.sessionTracking)
        = .ok ((), s', w') →
    s.latchedElsewhere header = false →
    s'.latchedElsewhere header = false →
    run context fuel (start ++ rest) s = .ok ((), t, v) →
    ∃ t' v', run context fuel (start ++ rest) s' = .ok ((), t', v') ∧ messages v' = messages v

/-- Both histories end with nothing held; and if they leave different fragment buffers, what is
read of a packet of the new session lies inside it.
-/
def SparesSession (context : StreamContext) (streamid : EQStreamID) (dir : UInt8)
    (arqSeqGiveUp : UInt16) (fuel : Nat) (before before' start rest : List Arrival)
    : Prop :=
  ∀ s w s' w' t v,
    run context fuel before (fresh streamid dir arqSeqGiveUp context.sessionTracking)
        = .ok ((), s, w) →
    run context fuel before' (fresh streamid dir arqSeqGiveUp context.sessionTracking)
        = .ok ((), s', w') →
    run context fuel (start ++ rest) s = .ok ((), t, v) →
    s.HoldsNothing ∧ s'.HoldsNothing ∧ (s'.fragment = s.fragment ∨ ∀ e ∈ v, KeepsToItself e)

/-- The response that starts the next session, with session key 8. -/
def nextSession : List Arrival := [.packet serverHeader (sessionResponseDatagram 10 8 512)]

end EQPacketStream
end Scry
