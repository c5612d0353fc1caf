import Scry.PacketStream.Stream

/-! What a stream can do, one step at a time.
Every completed call is a chain of these steps, so an invariant of the stream is proved once
for each of them and holds along every run.
-/

namespace Scry
namespace EQPacketStream

-----------------------------------------------------------------------------------------
-- What a packet is to the stream that finds it
-----------------------------------------------------------------------------------------

/-- A sequenced packet that is next in line. -/
def Expects (s : EQPacketStream) (packet : EQProtocolPacket) : Prop :=
  packet.hasArqSeq ∧ packet.arqSeq = s.arqSeqExp

/-- A sequenced packet from the future, by the stream's window test. -/
def Awaits (s : EQPacketStream) (packet : EQProtocolPacket) : Prop :=
  packet.hasArqSeq ∧ packet.arqSeq ≠ s.arqSeqExp ∧ isFuture s.arqSeqExp packet.arqSeq

theorem expects_of_netOp {s : EQPacketStream} {packet : EQProtocolPacket}
    (kind : packet.netOp = OP_Packet ∨ packet.netOp = OP_Oversized)
    (next : packet.arqSeq = s.arqSeqExp)
    : s.Expects packet :=
  ⟨by simpa [EQProtocolPacket.hasArqSeq] using kind, next⟩

/-- A future packet whose number the cache has not got. -/
def Inserts (s : EQPacketStream) (packet : EQProtocolPacket) : Prop :=
  s.Awaits packet ∧ s.cache.find? packet.arqSeq = none

/-- A future packet that replaces the entry stored under its number. -/
def Replaces (s : EQPacketStream) (packet : EQProtocolPacket) : Prop :=
  s.Awaits packet ∧ s.cache.find? packet.arqSeq ≠ none ∧ packet.passesCRC s.sessionKey

/-- A session request of the right size. -/
def Requests (packet : EQProtocolPacket) : Prop :=
  packet.netOp = OP_SessionRequest ∧ packet.payloadLength = sessionRequestSize

/-- A session response of the right size. -/
def Responds (packet : EQProtocolPacket) : Prop :=
  packet.netOp = OP_SessionResponse ∧ packet.payloadLength = sessionResponseSize

/-- A disconnect the stream acts on. -/
def Disconnects (s : EQPacketStream) (packet : EQProtocolPacket) : Prop :=
  packet.netOp = OP_SessionDisconnect ∧ s.ignoresDisconnect packet = false

/-- A packet that changes nothing by itself. -/
structure Idle (s : EQPacketStream) (packet : EQProtocolPacket) : Prop where
  not_expected : ¬ s.Expects packet
  not_inserted : ¬ s.Inserts packet
  not_replaced : ¬ s.Replaces packet
  not_request : ¬ Requests packet
  not_response : ¬ Responds packet
  not_disconnect : ¬ s.Disconnects packet

instance (s : EQPacketStream) (packet : EQProtocolPacket) : Decidable (s.Expects packet) :=
  inferInstanceAs (Decidable (_ ∧ _))

instance (s : EQPacketStream) (packet : EQProtocolPacket) : Decidable (s.Awaits packet) :=
  inferInstanceAs (Decidable (_ ∧ _ ∧ _))

instance (s : EQPacketStream) (packet : EQProtocolPacket) : Decidable (s.Inserts packet) :=
  inferInstanceAs (Decidable (_ ∧ _))

instance (s : EQPacketStream) (packet : EQProtocolPacket) : Decidable (s.Replaces packet) :=
  inferInstanceAs (Decidable (_ ∧ _ ∧ _))

instance (packet : EQProtocolPacket) : Decidable (Requests packet) :=
  inferInstanceAs (Decidable (_ ∧ _))

instance (packet : EQProtocolPacket) : Decidable (Responds packet) :=
  inferInstanceAs (Decidable (_ ∧ _))

instance (s : EQPacketStream) (packet : EQProtocolPacket) : Decidable (s.Disconnects packet) :=
  inferInstanceAs (Decidable (_ ∧ _))

-----------------------------------------------------------------------------------------
-- The steps
-----------------------------------------------------------------------------------------

/-- The events that free the whole cache. -/
def freeing (s : EQPacketStream) : List StreamEvent := s.cache.keys.map .deletePacket

/-- The stream with the expected number moved on. -/
def advanced (s : EQPacketStream) : EQPacketStream := { s with arqSeqExp := s.arqSeqExp + 1 }

/-- The stream with the client's side of the session set. -/
def latched (s : EQPacketStream) (port : UInt16) (ip : UInt32) : EQPacketStream :=
  { s with sessionClientPort := port, sessionClientIP := ip }

/-- The stream an expected fragment leaves. -/
def fragmented (s : EQPacketStream) (packet : EQProtocolPacket) : EQPacketStream :=
  { s with arqSeqExp := s.arqSeqExp + 1, fragment := (s.fragment.addFragment packet).1 }

/-- The events of an expected fragment: the copy it made, and the message it completed. -/
def fragmentEvents (s : EQPacketStream) (packet : EQProtocolPacket) : List StreamEvent :=
  let (fragment, write) := s.fragment.addFragment packet
  write.toList.map .fragmentCopy
    ++ if fragment.isComplete then
        [.completedOversized (readBytes fragment.data fragment.dataSize)]
      else []

/-- One step of processing a packet, with what it records. -/
inductive PacketStep (context : StreamContext)
    : EQPacketStream → List StreamEvent → EQPacketStream → Prop
  | visit {s packet} (idle : s.Idle packet) : PacketStep context s [.processing s packet] s
  | dispatch {s} (call : DispatchCall) : PacketStep context s [.dispatchPacket call] s
  | expected {s packet} (kind : packet.netOp = OP_Packet) (next : packet.arqSeq = s.arqSeqExp)
    : PacketStep context s [.processing s packet] s.advanced
  | fragment {s packet} (kind : packet.netOp = OP_Oversized)
    (next : packet.arqSeq = s.arqSeqExp)
    : PacketStep context s (.processing s packet :: s.fragmentEvents packet)
        (s.fragmented packet)
  | emptied {s} : PacketStep context s [] { s with fragment := s.fragment.reset }
  | inserted {s packet} (inserts : s.Inserts packet)
    : PacketStep context s [.processing s packet] (s.stored packet.arqSeq packet)
  | replaced {s packet} (replaces : s.Replaces packet)
    : PacketStep context s [.processing s packet, .deletePacket packet.arqSeq]
        (s.stored packet.arqSeq packet)
  | requested {s packet} (requests : Requests packet)
    : PacketStep context s [.processing s packet] (s.requested packet)
  | responded {s packet} (responds : Responds packet)
    : PacketStep context s
        [.processing s packet,
          .sessionKey (s.responded packet).sessionId s.streamid (s.responded packet).sessionKey]
        (s.responded packet)
  | latch {s} (tracked : s.sessionTracking = true) (port : UInt16) (ip : UInt32)
    : PacketStep context s [] (s.latched port ip)
  | disconnected {s packet} (disconnects : s.Disconnects packet)
    : PacketStep context s (.processing s packet :: s.freeing)
        { s with arqSeqExp := 0, cache := .empty }
  | closing {s} (sessionId : UInt32) (streamid : EQStreamID)
    : PacketStep context s [.closing sessionId streamid] s
  | closed {s} (empty : s.cache = .empty)
    : PacketStep context s [] { s.cleared with sessionTracking := context.sessionTracking }

/-- One step of a stream: of processing a packet, of `processCache` around it, or of another
stream's key or disconnect.
-/
inductive Step (context : StreamContext)
    : EQPacketStream → List StreamEvent → EQPacketStream → Prop
  | packet {s w t} (step : PacketStep context s w t) : Step context s w t
  | skipped {s} (missing : s.cache.find? s.arqSeqExp = none)
    : Step context s [.skipping s] s.advanced
  | replaying {s seq packet} (outside : s.replaying = none)
    (entry : s.cache.find? seq = some packet) (next : packet.arqSeq = s.arqSeqExp)
    (valid : packet.passesCRC s.sessionKey)
    : Step context s [] { s with replaying := some seq }
  | replayed {s seq packet} (atEntry : s.replaying = some seq)
    (entry : s.cache.find? seq = some packet)
    : Step context s [.advancing s, .deletePacket seq]
        { s with cache := s.cache.erase seq, replaying := none }
  | dropped {s seq packet} (outside : s.replaying = none)
    (entry : s.cache.find? seq = some packet) (next : packet.arqSeq = s.arqSeqExp)
    (corrupt : packet.passesCRC s.sessionKey = false)
    : Step context s [.deletePacket seq] { s with cache := s.cache.erase seq }
  | keyed {s} (sessionId : UInt32) (streamid : EQStreamID) (key : UInt32)
    : Step context s [] (receiveSessionKey sessionId streamid key s)
  | closed {s}
    : Step context s s.freeing { s.cleared with sessionTracking := context.sessionTracking }

variable {context : StreamContext}

/-- Processing a packet is a chain of packet steps. -/
abbrev PacketSteps (context : StreamContext) := Traced.Chain (PacketStep context)

/-- A completed call is a chain of stream steps. -/
abbrev Steps (context : StreamContext) := Traced.Chain (Step context)

theorem PacketSteps.steps {s t : EQPacketStream} {w : List StreamEvent}
    (steps : PacketSteps context s w t)
    : Steps context s w t :=
  steps.mono (fun _ _ _ => .packet)

-----------------------------------------------------------------------------------------
-- Processing a packet is a chain of steps
-----------------------------------------------------------------------------------------

/-- Freeing entries records one event each and changes nothing. -/
theorem forEach_deletePacket (seqs : List UInt16) (s : EQPacketStream)
    : (Traced.forEach (fun seq => Traced.emit (.deletePacket seq)) seqs : StreamM Unit) s
      = .ok ((), s, seqs.map .deletePacket) := by
  induction seqs with
  | nil => rfl
  | cons seq rest ih =>
      simp only [Traced.forEach, Traced.emit_bind_run, ih, List.map_cons]

theorem resetCache_run (s : EQPacketStream)
    : resetCache s = .ok ((), { s with cache := .empty }, s.freeing) := by
  simp only [resetCache, Traced.get_bind_run]
  rw [Traced.bind_run_ok (forEach_deletePacket _ s)]
  simp [freeing]

theorem reset_run (s : EQPacketStream) : reset s = .ok ((), s.cleared, s.freeing) := by
  rw [reset, Traced.bind_run_ok (resetCache_run s)]
  simp [cleared]

theorem close_run (sessionId : UInt32) (s : EQPacketStream)
    : close context sessionId s
      = if sessionId = s.sessionId then
          .ok ((), { s.cleared with sessionTracking := context.sessionTracking }, s.freeing)
        else .ok ((), s, []) := by
  simp only [close, Traced.get_bind_run, Traced.when]
  split
  · rw [Traced.bind_run_ok (reset_run s)]
    simp
  · rfl

/-- Latching needs an outer packet and a stream that tracks its session; it is one step then. -/
theorem latch_steps {header : Option IPHeader} {port : IPHeader → UInt16}
    {ip : IPHeader → UInt32} {tracking : Bool} {s t : EQPacketStream} {w : List StreamEvent}
    (same : s.sessionTracking = tracking)
    (run : Traced.when tracking (latch header port ip) s = .ok ((), t, w))
    : PacketSteps context s w t := by
  cases tracking with
  | false =>
      cases run
      exact .refl s
  | true =>
      cases header with
      | none => cases run
      | some header =>
          cases run
          exact .single (.latch same (port header) (ip header))

/-- From the stream `s`, the computation continues the processing of `packet` in steps. -/
def Visits (context : StreamContext) (s : EQPacketStream) (packet : EQProtocolPacket)
    (m : StreamM Unit)
    : Prop :=
  ∀ t w, m s = .ok ((), t, w) → PacketSteps context s (.processing s packet :: w) t

variable {processInner : EQProtocolPacket → StreamM Unit}

theorem perform_stepwise
    (inner : ∀ packet, Traced.Stepwise (PacketStep context) (processInner packet)) (item : Item)
    : Traced.Stepwise (PacketStep context) (perform processInner item) := by
  cases item with
  | message call => exact Traced.stepwise_emit (fun _ => .dispatch call)
  | subpacket packet => exact inner packet

/-- What an idle packet goes on to do is all there is to its processing. -/
theorem Idle.visits {s : EQPacketStream} {packet : EQProtocolPacket} (idle : s.Idle packet)
    {m : StreamM Unit} (stepwise : Traced.Stepwise (PacketStep context) m)
    : Visits context s packet m :=
  fun t w run => Traced.Chain.head (.visit idle) (stepwise s () t w run)

/-- An unsequenced packet is idle when it is no session packet the stream acts on. -/
theorem idle_of_unsequenced {s : EQPacketStream} {packet : EQProtocolPacket}
    (unsequenced : ¬ packet.hasArqSeq) (request : ¬ Requests packet)
    (response : ¬ Responds packet) (disconnect : ¬ s.Disconnects packet)
    : s.Idle packet where
  not_expected expects := unsequenced expects.1
  not_inserted inserts := unsequenced inserts.1.1
  not_replaced replaces := unsequenced replaces.1.1
  not_request := request
  not_response := response
  not_disconnect := disconnect

/-- A packet of another kind than the stateful ones is idle. -/
theorem idle_of_netOp {s : EQPacketStream} {packet : EQProtocolPacket}
    (sequenced : packet.netOp ≠ OP_Packet) (oversized : packet.netOp ≠ OP_Oversized)
    (request : packet.netOp ≠ OP_SessionRequest)
    (response : packet.netOp ≠ OP_SessionResponse)
    (disconnect : packet.netOp ≠ OP_SessionDisconnect)
    : s.Idle packet :=
  idle_of_unsequenced (by simp [EQProtocolPacket.hasArqSeq, sequenced, oversized])
    (fun requests => request requests.1) (fun responds => response responds.1)
    (fun disconnects => disconnect disconnects.1)

/-- A sequenced packet is none of the session packets. -/
theorem not_session_of_hasArqSeq {packet : EQProtocolPacket} (sequenced : packet.hasArqSeq)
    : packet.netOp ≠ OP_SessionRequest
      ∧ packet.netOp ≠ OP_SessionResponse
      ∧ packet.netOp ≠ OP_SessionDisconnect := by
  simp only [EQProtocolPacket.hasArqSeq, Bool.or_eq_true, beq_iff_eq] at sequenced
  rcases sequenced with kind | kind <;> rw [kind] <;> decide

/-- A sequenced packet is idle when it is neither next nor stored. -/
theorem idle_of_hasArqSeq {s : EQPacketStream} {packet : EQProtocolPacket}
    (sequenced : packet.hasArqSeq) (expected : ¬ s.Expects packet)
    (inserted : ¬ s.Inserts packet) (replaced : ¬ s.Replaces packet)
    : s.Idle packet :=
  have ⟨request, response, disconnect⟩ := not_session_of_hasArqSeq sequenced
  {
    not_expected := expected
    not_inserted := inserted
    not_replaced := replaced
    not_request := fun requests => request requests.1
    not_response := fun responds => response responds.1
    not_disconnect := fun disconnects => disconnect disconnects.1
  }

/-- A sequenced packet that is not next is stored, replaces an entry or is dropped. -/
theorem unexpected_visits {s : EQPacketStream} {packet : EQProtocolPacket}
    (sequenced : packet.hasArqSeq) (unexpected : packet.arqSeq ≠ s.arqSeqExp)
    : Visits context s packet
        (Traced.when (isFuture s.arqSeqExp packet.arqSeq) (setCache packet.arqSeq packet)) := by
  have notExpected : ¬ s.Expects packet := fun expects => unexpected expects.2
  by_cases future : isFuture s.arqSeqExp packet.arqSeq
  · have awaits : s.Awaits packet := ⟨sequenced, unexpected, future⟩
    rw [Traced.when_pos future]
    intro t w run
    simp only [setCache, Traced.get_bind_run] at run
    cases found : s.cache.find? packet.arqSeq with
    | none =>
        simp only [found] at run
        cases run
        exact .single (.inserted ⟨awaits, found⟩)
    | some old =>
        simp only [found] at run
        have taken : s.cache.find? packet.arqSeq ≠ none := by simp [found]
        by_cases valid : packet.passesCRC s.sessionKey
        · simp only [Traced.when_pos valid, Traced.emit_bind_run] at run
          cases run
          exact .single (.replaced ⟨awaits, taken, valid⟩)
        · simp only [Traced.when_neg valid] at run
          cases run
          exact .single (.visit (idle_of_hasArqSeq sequenced notExpected
            (fun inserts => taken inserts.2) (fun replaces => valid replaces.2.2)))
  · rw [Traced.when_neg future]
    refine Idle.visits (idle_of_hasArqSeq sequenced notExpected ?_ ?_) (Traced.stepwise_pure ())
    · exact fun inserts => future inserts.1.2.2
    · exact fun replaces => future replaces.1.2.2

theorem processSequenced_expected {s : EQPacketStream} {packet : EQProtocolPacket}
    (next : packet.arqSeq = s.arqSeqExp)
    : processSequenced processInner packet s
      = perform processInner (unwrapPacket packet) s.advanced := by
  simp only [processSequenced, Traced.get_bind_run, next, if_true, Traced.modify_bind_run]
  rfl

theorem processSequenced_visits
    (inner : ∀ packet, Traced.Stepwise (PacketStep context) (processInner packet))
    {s : EQPacketStream} {packet : EQProtocolPacket} (kind : packet.netOp = OP_Packet)
    : Visits context s packet (processSequenced processInner packet) := by
  intro t w run
  have sequenced : packet.hasArqSeq := by simp [EQProtocolPacket.hasArqSeq, kind]
  by_cases next : packet.arqSeq = s.arqSeqExp
  · rw [processSequenced_expected next] at run
    exact Traced.Chain.head (.expected kind next) (perform_stepwise inner _ _ _ _ _ run)
  · simp only [processSequenced, Traced.get_bind_run, next, if_false] at run
    exact unexpected_visits sequenced next t w run

/-- Processing a completed message: its content, with the buffer checked afterwards. -/
theorem processFragment_stepwise
    (inner : ∀ packet, Traced.Stepwise (PacketStep context) (processInner packet))
    (message : EQPacketFragmentSequence)
    : Traced.Stepwise (PacketStep context) (processFragment processInner message) := by
  refine (perform_stepwise inner _).listen.bind ?_
  rintro ⟨_, seen⟩
  refine Traced.stepwise_get.bind ?_
  intro after
  split
  · exact Traced.stepwise_pure ()
  · exact Traced.stepwise_fault _

/-- An expected fragment: the copy, and the processing of the message if it is complete. -/
theorem processOversized_expected {s : EQPacketStream} {packet : EQProtocolPacket}
    (next : packet.arqSeq = s.arqSeqExp)
    : processOversized processInner packet s
      = (do
          Traced.forEach (fun write => Traced.emit (.fragmentCopy write))
            (s.fragment.addFragment packet).2.toList
          Traced.when (s.fragment.addFragment packet).1.isComplete do
            Traced.emit
              (.completedOversized
                (readBytes (s.fragment.addFragment packet).1.data
                  (s.fragment.addFragment packet).1.dataSize))
            processFragment processInner (s.fragment.addFragment packet).1
            Traced.modify fun s => { s with fragment := s.fragment.reset }
          : StreamM Unit) (s.fragmented packet) := by
  simp only [processOversized, Traced.get_bind_run, next, if_true, Traced.modify_bind_run]
  rfl

/-- A copy is recorded as one event. -/
theorem forEach_fragmentCopy (write : Option BufferWrite) (s : EQPacketStream)
    : (Traced.forEach (fun write => Traced.emit (.fragmentCopy write)) write.toList
        : StreamM Unit) s
      = .ok ((), s, write.toList.map .fragmentCopy) := by
  cases write <;> rfl

/-- An expected fragment is one step; if it completed a message, the message's content and
the release of the buffer follow.
-/
theorem processOversized_visits
    (inner : ∀ packet, Traced.Stepwise (PacketStep context) (processInner packet))
    {s : EQPacketStream} {packet : EQProtocolPacket} (kind : packet.netOp = OP_Oversized)
    : Visits context s packet (processOversized processInner packet) := by
  intro t w run
  have sequenced : packet.hasArqSeq := by simp [EQProtocolPacket.hasArqSeq, kind]
  by_cases next : packet.arqSeq = s.arqSeqExp
  · have first : PacketStep context s _ _ := .fragment kind next
    rw [processOversized_expected next] at run
    obtain ⟨_, u, copies, later, copied, rest, rfl⟩ := Traced.bind_eq_ok.mp run
    rw [forEach_fragmentCopy] at copied
    cases copied
    by_cases complete : (s.fragment.addFragment packet).1.isComplete
    · simp only [Traced.when_pos complete] at rest
      obtain ⟨_, _, _, content, mark, inside, rfl⟩ := Traced.bind_eq_ok.mp rest
      cases mark
      obtain ⟨_, v, performed, _, processed, release, joined⟩ := Traced.bind_eq_ok.mp inside
      cases release
      have chain :=
        (Traced.Chain.head first (processFragment_stepwise inner _ _ _ _ _ processed)).trans
          (.single .emptied)
      simpa [fragmentEvents, complete, joined] using chain
    · simp only [Traced.when_neg complete] at rest
      cases rest
      simpa [fragmentEvents, complete] using Traced.Chain.single first
  · simp only [processOversized, Traced.get_bind_run, next, if_false] at run
    exact unexpected_visits sequenced next t w run

/-- A packet of a session kind is idle unless the stream acts on it. -/
theorem idle_of_session {s : EQPacketStream} {packet : EQProtocolPacket} {kind : UInt16}
    (netOp : packet.netOp = kind) (unsequenced : kind ≠ OP_Packet ∧ kind ≠ OP_Oversized)
    (request : ¬ Requests packet) (response : ¬ Responds packet)
    (disconnect : ¬ s.Disconnects packet)
    : s.Idle packet :=
  idle_of_unsequenced
    (by simp [EQProtocolPacket.hasArqSeq, netOp, unsequenced.1, unsequenced.2])
    request response disconnect

theorem processSessionRequest_visits {s : EQPacketStream} {packet : EQProtocolPacket}
    {header : Option IPHeader} (kind : packet.netOp = OP_SessionRequest)
    : Visits context s packet (processSessionRequest packet header) := by
  intro t w run
  simp only [processSessionRequest] at run
  by_cases size : packet.payloadLength = sessionRequestSize
  · simp only [Traced.when_pos size, Traced.get_bind_run, Traced.modify_bind_run] at run
    exact Traced.Chain.head (PacketStep.requested ⟨kind, size⟩) (latch_steps (by rfl) run)
  · simp only [Traced.when_neg size] at run
    cases run
    refine .single (.visit (idle_of_session kind (by decide) ?_ ?_ ?_))
    · exact fun requests => size requests.2
    · exact fun responds => absurd (kind.symm.trans responds.1) (by decide)
    · exact fun disconnects => absurd (kind.symm.trans disconnects.1) (by decide)

theorem processSessionResponse_visits {s : EQPacketStream} {packet : EQProtocolPacket}
    {header : Option IPHeader} (kind : packet.netOp = OP_SessionResponse)
    : Visits context s packet (processSessionResponse packet header) := by
  intro t w run
  simp only [processSessionResponse] at run
  by_cases size : packet.payloadLength = sessionResponseSize
  · simp only [Traced.when_pos size, Traced.get_bind_run, Traced.modify_bind_run] at run
    obtain ⟨_, _, _, late, sent, rest, rfl⟩ := Traced.bind_eq_ok.mp run
    cases sent
    exact Traced.Chain.head (PacketStep.responded ⟨kind, size⟩) (latch_steps (by rfl) rest)
  · simp only [Traced.when_neg size] at run
    cases run
    refine .single (.visit (idle_of_session kind (by decide) ?_ ?_ ?_))
    · exact fun requests => absurd (kind.symm.trans requests.1) (by decide)
    · exact fun responds => size responds.2
    · exact fun disconnects => absurd (kind.symm.trans disconnects.1) (by decide)

/-- A stream that closes itself has an empty cache by then. -/
theorem close_when_steps {c : Prop} [Decidable c] {sessionId : UInt32} {s t : EQPacketStream}
    {w : List StreamEvent} (empty : s.cache = .empty)
    (run : Traced.when c (close context sessionId) s = .ok ((), t, w))
    : PacketSteps context s w t := by
  have nothing : s.freeing = [] := by simp [freeing, empty]
  by_cases connected : c
  · rw [Traced.when_pos connected, close_run, nothing] at run
    split at run <;> cases run
    · exact .single (.closed empty)
    · exact .refl s
  · rw [Traced.when_neg connected] at run
    cases run
    exact .refl s

theorem processSessionDisconnect_visits {s : EQPacketStream} {packet : EQProtocolPacket}
    (kind : packet.netOp = OP_SessionDisconnect)
    : Visits context s packet (processSessionDisconnect context packet) := by
  intro t w run
  simp only [processSessionDisconnect, Traced.get_bind_run] at run
  by_cases heeded : !s.ignoresDisconnect packet
  · have acts : s.Disconnects packet := ⟨kind, by simpa using heeded⟩
    simp only [Traced.when_pos heeded, Traced.modify_bind_run] at run
    obtain ⟨_, _, _, late, freed, rest, rfl⟩ := Traced.bind_eq_ok.mp run
    rw [resetCache_run] at freed
    cases freed
    obtain ⟨_, u, unlatching, _, unlatched, closing, joined⟩ := Traced.bind_eq_ok.mp rest
    obtain ⟨unlatch, empty⟩
        : PacketSteps context { s with arqSeqExp := 0, cache := .empty } unlatching u
          ∧ u.cache = .empty := by
      by_cases tracked : s.sessionTracking
      · rw [Traced.when_pos tracked] at unlatched
        cases unlatched
        exact ⟨.single (.latch (s := { s with arqSeqExp := 0, cache := .empty }) tracked 0 0), rfl⟩
      · rw [Traced.when_neg tracked] at unlatched
        cases unlatched
        exact ⟨.refl _, rfl⟩
    obtain ⟨_, _, _, last, signalled, closed, rfl⟩ := Traced.bind_eq_ok.mp closing
    cases signalled
    have close := Traced.Chain.head (PacketStep.closing s.sessionId s.streamid)
      (close_when_steps empty closed)
    rw [joined]
    exact Traced.Chain.head (PacketStep.disconnected acts) (unlatch.trans close)
  · simp only [Traced.when_neg heeded] at run
    cases run
    refine .single (.visit (idle_of_session kind (by decide) ?_ ?_ ?_))
    · exact fun requests => absurd (kind.symm.trans requests.1) (by decide)
    · exact fun responds => absurd (kind.symm.trans responds.1) (by decide)
    · exact fun disconnects => heeded (by simp [disconnects.2])

theorem processNetOpCode_combined {packet : EQProtocolPacket} {header : Option IPHeader}
    (kind : packet.netOp = OP_Combined)
    : processNetOpCode context processInner packet header
      = Traced.forEach (perform processInner) (unrollCombined packet) := by
  have net : IS_APP_OPCODE OP_Combined = false := by decide
  simp [processNetOpCode, kind, net]

theorem processNetOpCode_appCombined {packet : EQProtocolPacket} {header : Option IPHeader}
    (kind : packet.netOp = OP_AppCombined)
    : processNetOpCode context processInner packet header
      = Traced.forEach (perform processInner) (unrollAppCombined packet) := by
  have net : IS_APP_OPCODE OP_AppCombined = false := by decide
  have other : OP_AppCombined ≠ OP_Combined := by decide
  simp [processNetOpCode, kind, net, other]

theorem processNetOpCode_packet {packet : EQProtocolPacket} {header : Option IPHeader}
    (kind : packet.netOp = OP_Packet)
    : processNetOpCode context processInner packet header
      = processSequenced processInner packet := by
  have net : IS_APP_OPCODE OP_Packet = false := by decide
  have others : OP_Packet ≠ OP_Combined ∧ OP_Packet ≠ OP_AppCombined := by decide
  simp [processNetOpCode, kind, net, others]

theorem processNetOpCode_oversized {packet : EQProtocolPacket} {header : Option IPHeader}
    (kind : packet.netOp = OP_Oversized)
    : processNetOpCode context processInner packet header
      = processOversized processInner packet := by
  have net : IS_APP_OPCODE OP_Oversized = false := by decide
  have others : OP_Oversized ≠ OP_Combined ∧ OP_Oversized ≠ OP_AppCombined
      ∧ OP_Oversized ≠ OP_Packet := by decide
  simp [processNetOpCode, kind, net, others]

/-- The switch processes its packet in steps, by the kind of the packet. -/
theorem processNetOpCode_visits
    (inner : ∀ packet, Traced.Stepwise (PacketStep context) (processInner packet))
    {s : EQPacketStream} {packet : EQProtocolPacket} {header : Option IPHeader}
    : Visits context s packet (processNetOpCode context processInner packet header) := by
  unfold processNetOpCode
  split_ifs with app combined appCombined sequenced oversized request response disconnect
  · have stateless (kind : UInt16) (net : IS_APP_OPCODE kind = false)
        : packet.netOp ≠ kind := by
      rintro rfl
      simp [net] at app
    refine Idle.visits (idle_of_netOp ?_ ?_ ?_ ?_ ?_)
      (Traced.stepwise_emit (fun _ => .dispatch _))
    all_goals exact stateless _ (by decide)
  · refine Idle.visits (idle_of_netOp ?_ ?_ ?_ ?_ ?_)
      (Traced.Stepwise.forEach fun item _ => perform_stepwise inner item)
    all_goals rw [combined]; decide
  · refine Idle.visits (idle_of_netOp ?_ ?_ ?_ ?_ ?_)
      (Traced.Stepwise.forEach fun item _ => perform_stepwise inner item)
    all_goals rw [appCombined]; decide
  · exact processSequenced_visits inner sequenced
  · exact processOversized_visits inner oversized
  · exact processSessionRequest_visits request
  · exact processSessionResponse_visits response
  · exact processSessionDisconnect_visits disconnect
  · exact Idle.visits (idle_of_netOp sequenced oversized request response disconnect)
      (Traced.stepwise_pure ())

/-- Processing a packet is a chain of steps, by induction on the recursion bound. -/
theorem processPacket_stepwise (fuel : Nat) (packet : EQProtocolPacket)
    (header : Option IPHeader)
    : Traced.Stepwise (PacketStep context) (processPacket context fuel packet header) := by
  induction fuel generalizing packet header with
  | zero => exact Traced.stepwise_fault _
  | succ fuel ih =>
      intro s _ t w run
      simp only [processPacket, Traced.get_bind_run] at run
      obtain ⟨_, _, _, late, seen, rest, rfl⟩ := Traced.bind_eq_ok.mp run
      cases seen
      exact processNetOpCode_visits (fun packet => ih packet none) t late rest

theorem processPacket_steps {fuel : Nat} {packet : EQProtocolPacket} {header : Option IPHeader}
    {s t : EQPacketStream} {w : List StreamEvent}
    (run : processPacket context fuel packet header s = .ok ((), t, w))
    : PacketSteps context s w t :=
  processPacket_stepwise fuel packet header _ _ _ _ run

-----------------------------------------------------------------------------------------
-- Calls from outside are chains of steps
-----------------------------------------------------------------------------------------

theorem skipMissing_stepwise (steps : Nat)
    : Traced.Stepwise (Step context) (skipMissing steps) := by
  induction steps with
  | zero => exact Traced.stepwise_fault _
  | succ steps ih =>
      intro s _ t w run
      simp only [skipMissing, Traced.get_bind_run] at run
      cases found : s.cache.find? s.arqSeqExp with
      | some entry =>
          simp only [found] at run
          cases run
          exact .refl s
      | none =>
          simp only [found] at run
          obtain ⟨_, _, _, late, seen, rest, rfl⟩ := Traced.bind_eq_ok.mp run
          cases seen
          rw [Traced.modify_bind_run] at rest
          exact Traced.Chain.head (Step.skipped found) (ih _ _ _ _ rest)

/-- Processing a packet leaves the iterator's position alone. -/
theorem PacketStep.replaying_eq {s t : EQPacketStream} {w : List StreamEvent}
    (step : PacketStep context s w t)
    : t.replaying = s.replaying := by
  cases step <;> rfl

/-- A cached entry is what it was unless its number was freed. -/
theorem PacketStep.find?_eq {s t : EQPacketStream} {w : List StreamEvent} {seq : UInt16}
    {packet : EQProtocolPacket} (step : PacketStep context s w t)
    (kept : .deletePacket seq ∉ w) (entry : s.cache.find? seq = some packet)
    : t.cache.find? seq = some packet := by
  have freed : .deletePacket seq ∈ s.freeing :=
    List.mem_map.mpr ⟨seq, OrderedMap.mem_keys_iff.mpr ⟨packet, entry⟩, rfl⟩
  cases step with
  | inserted inserts =>
      rename_i stored
      have ne : seq ≠ stored.arqSeq := by
        rintro rfl
        simp [inserts.2] at entry
      exact (OrderedMap.find?_insert_of_ne _ _ ne).trans entry
  | replaced replaces =>
      rename_i stored
      have ne : seq ≠ stored.arqSeq := by
        rintro rfl
        simp at kept
      exact (OrderedMap.find?_insert_of_ne _ _ ne).trans entry
  | disconnected => exact absurd (List.mem_cons_of_mem _ freed) kept
  | closed empty => simp [empty] at entry
  | _ => exact entry

theorem PacketSteps.replaying_eq {s t : EQPacketStream} {w : List StreamEvent}
    (steps : PacketSteps context s w t)
    : t.replaying = s.replaying := by
  induction steps with
  | refl => rfl
  | tail _ last ih => exact last.replaying_eq.trans ih

theorem PacketSteps.find?_eq {s t : EQPacketStream} {w : List StreamEvent} {seq : UInt16}
    {packet : EQProtocolPacket} (steps : PacketSteps context s w t)
    (kept : .deletePacket seq ∉ w) (entry : s.cache.find? seq = some packet)
    : t.cache.find? seq = some packet := by
  induction steps with
  | refl => exact entry
  | tail _ last ih =>
      rw [List.mem_append, not_or] at kept
      exact last.find?_eq kept.2 (ih kept.1)

/-- What a completed replay did: it processed the entry without freeing it, erased it, and
moved the iterator to the entry behind it or to the front.
-/
theorem replay_eq_ok {fuel : Nat} {seq : UInt16} {packet : EQProtocolPacket}
    {s t : EQPacketStream} {next : Option UInt16} {w : List StreamEvent}
    : replay context fuel seq packet s = .ok (next, t, w)
      ↔ ∃ u inside,
          processPacket context fuel packet none { s with replaying := some seq }
              = .ok ((), u, inside)
            ∧ .deletePacket seq ∉ inside
            ∧ t = { u with cache := u.cache.erase seq, replaying := none }
            ∧ w = inside ++ [.advancing u, .deletePacket seq]
            ∧ next
              = if u.arqSeqExp = 0 then (u.cache.erase seq).first? else u.cache.next? seq := by
  simp only [replay, Traced.modify_bind_run]
  constructor
  · intro run
    obtain ⟨⟨_, seen⟩, u, inside, late, observed, rest, rfl⟩ := Traced.bind_eq_ok.mp run
    obtain ⟨processed, rfl⟩ := Traced.listen_eq_ok.mp observed
    split_ifs at rest with freed
    · cases rest
    · simp only [Traced.get_bind_run, Traced.emit_bind_run, Traced.modify_bind_run] at rest
      cases rest
      exact ⟨u, seen, processed, freed, rfl, rfl, rfl⟩
  · rintro ⟨u, inside, processed, kept, rfl, rfl, rfl⟩
    have observed := Traced.listen_eq_ok.mpr ⟨processed, rfl⟩
    rw [Traced.bind_run_ok observed]
    simp only [kept, if_false, Traced.get_bind_run, Traced.emit_bind_run,
      Traced.modify_bind_run, Traced.pure_run]

/-- A completed replay is a chain of steps that ends outside of a replay. -/
theorem replay_steps {fuel : Nat} {seq : UInt16} {packet : EQProtocolPacket}
    {s t : EQPacketStream} {next : Option UInt16} {w : List StreamEvent}
    (outside : s.replaying = none) (entry : s.cache.find? seq = some packet)
    (expected : packet.arqSeq = s.arqSeqExp) (valid : packet.passesCRC s.sessionKey)
    (run : replay context fuel seq packet s = .ok (next, t, w))
    : Steps context s w t ∧ t.replaying = none := by
  obtain ⟨u, inside, processed, kept, rfl, rfl, rfl⟩ := replay_eq_ok.mp run
  have steps := processPacket_steps processed
  have survives : u.cache.find? seq = some packet := steps.find?_eq kept entry
  refine ⟨?_, rfl⟩
  have first : Step context s _ _ := .replaying outside entry expected valid
  have last : Step context u _ _ := .replayed steps.replaying_eq survives
  exact (Traced.Chain.head first steps.steps).trans (.single last)

/-- The loop over followers is a chain of steps, by induction on its bound. -/
theorem follow_steps {fuel steps : Nat} {position : Option UInt16} {s t : EQPacketStream}
    {w : List StreamEvent} (outside : s.replaying = none)
    (run : follow context fuel steps position s = .ok ((), t, w))
    : Steps context s w t ∧ t.replaying = none := by
  induction steps generalizing position s t w with
  | zero => cases run
  | succ steps ih =>
      cases position with
      | none =>
          cases run
          exact ⟨.refl s, outside⟩
      | some seq =>
          simp only [follow, Traced.get_bind_run] at run
          cases entry : s.cache.find? seq with
          | none =>
              simp only [entry] at run
              cases run
          | some packet =>
              simp only [entry] at run
              split_ifs at run with passed valid
              · cases run
                exact ⟨.refl s, outside⟩
              · obtain ⟨next, u, early, late, replayed, rest, rfl⟩ := Traced.bind_eq_ok.mp run
                obtain ⟨first, again⟩ :=
                  replay_steps outside entry (not_not.mp passed) valid replayed
                obtain ⟨second, final⟩ := ih again rest
                exact ⟨first.trans second, final⟩
              · simp only [Traced.emit_bind_run, Traced.modify_run] at run
                cases run
                refine ⟨.single (.dropped outside entry (not_not.mp passed) ?_), outside⟩
                simpa using valid

theorem skipMissing_replaying {steps : Nat} {s t : EQPacketStream} {w : List StreamEvent}
    (run : skipMissing steps s = .ok ((), t, w))
    : t.replaying = s.replaying := by
  induction steps generalizing s t w with
  | zero => cases run
  | succ steps ih =>
      simp only [skipMissing, Traced.get_bind_run] at run
      cases found : s.cache.find? s.arqSeqExp with
      | some entry =>
          simp only [found] at run
          cases run
          rfl
      | none =>
          simp only [found] at run
          obtain ⟨_, _, _, late, seen, rest, rfl⟩ := Traced.bind_eq_ok.mp run
          cases seen
          rw [Traced.modify_bind_run] at rest
          exact ih (s := s.advanced) rest

theorem skipMissing_when_replaying {c : Prop} [Decidable c] {steps : Nat}
    {s t : EQPacketStream} {w : List StreamEvent}
    (run : Traced.when c (skipMissing steps) s = .ok ((), t, w))
    : t.replaying = s.replaying := by
  by_cases full : c
  · rw [Traced.when_pos full] at run
    exact skipMissing_replaying run
  · rw [Traced.when_neg full] at run
    cases run
    rfl

/-- `processCache` gives up on missing packets if it must, then follows. -/
theorem processCache_eq_ok {fuel : Nat} {s t : EQPacketStream} {w : List StreamEvent}
    : processCache context fuel s = .ok ((), t, w)
      ↔ ∃ u skips follows,
          Traced.when (s.arqSeqGiveUp.toNat ≤ s.cache.size) (skipMissing (skipBound + 1)) s
              = .ok ((), u, skips)
            ∧ follow context fuel fuel
                (if (u.cache.find? u.arqSeqExp).isSome then some u.arqSeqExp else none) u
              = .ok ((), t, follows)
            ∧ w = skips ++ follows := by
  simp only [processCache, Traced.get_bind_run]
  constructor
  · intro run
    obtain ⟨_, u, skips, follows, skipped, followed, rfl⟩ := Traced.bind_eq_ok.mp run
    exact ⟨u, skips, follows, skipped, by simpa using followed, rfl⟩
  · rintro ⟨u, skips, follows, skipped, followed, rfl⟩
    exact Traced.bind_eq_ok.mpr ⟨(), u, skips, follows, skipped, by simpa using followed, rfl⟩

theorem processCache_steps {fuel : Nat} {s t : EQPacketStream} {w : List StreamEvent}
    (outside : s.replaying = none) (run : processCache context fuel s = .ok ((), t, w))
    : Steps context s w t ∧ t.replaying = none := by
  obtain ⟨u, skips, follows, skipped, followed, rfl⟩ := processCache_eq_ok.mp run
  have still : u.replaying = none := (skipMissing_when_replaying skipped).trans outside
  obtain ⟨steps, final⟩ := follow_steps still followed
  exact ⟨((skipMissing_stepwise _).when _ _ _ _ skipped).trans steps, final⟩

/-- What a completed `handlePacket` did: dropped the packet, or processed it and then the
cache if there is one.
-/
theorem handlePacket_eq_ok {fuel : Nat} {header : IPHeader} {datagram : Bytes}
    {s t : EQPacketStream} {w : List StreamEvent}
    : handlePacket context fuel header datagram s = .ok ((), t, w)
      ↔ (accept context s header (.ofDatagram datagram) = none ∧ t = s ∧ w = [])
        ∨ ∃ packet u processed cached,
            accept context s header (.ofDatagram datagram) = some packet
              ∧ processPacket context fuel packet (some header) s = .ok ((), u, processed)
              ∧ Traced.when (!u.cache.isEmpty) (processCache context fuel) u
                = .ok ((), t, cached)
              ∧ w = processed ++ cached := by
  simp only [handlePacket, Traced.get_bind_run]
  cases accepted : accept context s header (.ofDatagram datagram) with
  | none =>
      constructor
      · intro run
        cases run
        exact Or.inl ⟨rfl, rfl, rfl⟩
      · rintro (⟨_, rfl, rfl⟩ | ⟨_, _, _, _, impossible, _⟩)
        · rfl
        · cases impossible
  | some packet =>
      simp only [reduceCtorEq, false_and, false_or, Option.some.injEq]
      constructor
      · intro run
        obtain ⟨_, u, processed, cached, first, second, rfl⟩ := Traced.bind_eq_ok.mp run
        exact ⟨packet, u, processed, cached, rfl, first, by simpa using second, rfl⟩
      · rintro ⟨_, u, processed, cached, rfl, first, second, rfl⟩
        exact Traced.bind_eq_ok.mpr
          ⟨(), u, processed, cached, first, by simpa using second, rfl⟩

theorem handlePacket_steps {fuel : Nat} {header : IPHeader} {datagram : Bytes}
    {s t : EQPacketStream} {w : List StreamEvent} (outside : s.replaying = none)
    (run : handlePacket context fuel header datagram s = .ok ((), t, w))
    : Steps context s w t ∧ t.replaying = none := by
  rcases handlePacket_eq_ok.mp run with
    ⟨_, rfl, rfl⟩ | ⟨packet, u, processed, cached, _, first, second, rfl⟩
  · exact ⟨.refl t, outside⟩
  · have steps := processPacket_steps first
    have still : u.replaying = none := steps.replaying_eq.trans outside
    by_cases nonempty : !u.cache.isEmpty
    · rw [Traced.when_pos nonempty] at second
      obtain ⟨later, final⟩ := processCache_steps still second
      exact ⟨steps.steps.trans later, final⟩
    · rw [Traced.when_neg nonempty] at second
      cases second
      exact ⟨by simpa using steps.steps, still⟩

/-- Every call from outside is a chain of steps between replays. -/
theorem arrive_steps {fuel : Nat} {arrival : Arrival} {s t : EQPacketStream}
    {w : List StreamEvent} (outside : s.replaying = none)
    (run : arrive context fuel arrival s = .ok ((), t, w))
    : Steps context s w t ∧ t.replaying = none := by
  cases arrival with
  | packet header datagram => exact handlePacket_steps outside run
  | sessionKey sessionId streamid key =>
      cases run
      refine ⟨.single (.keyed sessionId streamid key), ?_⟩
      unfold receiveSessionKey
      split <;> exact outside
  | close sessionId =>
      simp only [arrive, close_run] at run
      split at run <;> cases run
      · exact ⟨.single .closed, outside⟩
      · exact ⟨.refl s, outside⟩

/-- A whole run is a chain of steps, by induction on the calls. -/
theorem run_steps {fuel : Nat} {arrivals : List Arrival} {s t : EQPacketStream}
    {w : List StreamEvent} (outside : s.replaying = none)
    (completed : run context fuel arrivals s = .ok ((), t, w))
    : Steps context s w t ∧ t.replaying = none := by
  induction arrivals generalizing s w with
  | nil =>
      cases completed
      exact ⟨.refl t, outside⟩
  | cons arrival rest ih =>
      simp only [run, Traced.forEach] at completed
      obtain ⟨_, u, early, late, first, second, rfl⟩ := Traced.bind_eq_ok.mp completed
      obtain ⟨steps, still⟩ := arrive_steps outside first
      obtain ⟨later, final⟩ := ih still second
      exact ⟨steps.trans later, final⟩

end EQPacketStream
end Scry
