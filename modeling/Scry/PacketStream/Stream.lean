import Scry.Library.OrderedMap
import Scry.Library.Traced
import Scry.PacketStream.FragmentSequence
import Scry.PacketStream.Unrolling
import Scry.Wire.Framing

/-! One direction of a session: the sequenced-packet cache, the fragment buffer, the session
the stream is latched to, and the handlers that move them.
A call runs as a traced computation; what it records names each packet it visited together
with the stream it found, so that a property of a run can be read off its trace.
-/

namespace Scry

-----------------------------------------------------------------------------------------
-- The stream
-----------------------------------------------------------------------------------------

/-- `EQStreamID`. -/
inductive EQStreamID
  | client2world
  | world2client
  | client2zone
  | zone2client
  deriving DecidableEq

def DIR_Client : UInt8 := 1

def DIR_Server : UInt8 := 2

/-- How far ahead of the expected sequence number a packet may be. -/
def arqSeqWrapCutoff : Nat := 1024

/-- The ceiling on the packet length a session may negotiate. -/
def maxPacketSize : UInt32 := 1048576

/-- The addresses of a UDP packet, in the byte order the stream compares them in. -/
structure IPHeader where
  sourceIP : UInt32
  destIP : UInt32
  sourcePort : UInt16
  destPort : UInt16
  deriving DecidableEq

/-- `EQPacketStream`. Session tracking is kept as on or off, as the stream never tells its
levels apart. `replaying` is the position of `processCache`'s iterator while the entry there
is being processed; it is a local variable of the source.
-/
structure EQPacketStream where
  streamid : EQStreamID
  dir : UInt8
  sessionTracking : Bool
  cache : OrderedMap UInt16 EQProtocolPacket
  arqSeqExp : UInt16
  arqSeqGiveUp : UInt16
  fragment : EQPacketFragmentSequence
  sessionId : UInt32
  sessionKey : UInt32
  sessionClientPort : UInt16
  sessionClientIP : UInt32
  maxLength : UInt32
  replaying : Option UInt16
  deriving DecidableEq

/-- What surrounds a stream: the inflater, whether its `closing` signal comes back to it
through `EQPacket::closeStream`, and the tracking setting that call restores.
-/
structure StreamContext where
  uncompress : Bytes → Nat → Option Bytes
  closingConnected : Bool
  sessionTracking : Bool

/-- What a call records. `processing`, `skipping` and `advancing` carry the stream as it is
before that step; `deletePacket` frees the cache entry stored under a number.
-/
inductive StreamEvent
  | processing (before : EQPacketStream) (packet : EQProtocolPacket)
  | skipping (before : EQPacketStream)
  | advancing (before : EQPacketStream)
  | dispatchPacket (call : DispatchCall)
  | fragmentCopy (write : BufferWrite)
  | completedOversized (message : Bytes)
  | sessionKey (sessionId : UInt32) (streamid : EQStreamID) (key : UInt32)
  | closing (sessionId : UInt32) (streamid : EQStreamID)
  | deletePacket (seq : UInt16)
  deriving DecidableEq

/-- Where the source leaves defined behaviour, or the recursion bound of the model runs out:
the replayed entry was freed under `processCache`, a completed message was overwritten while
its packets were processed, or an inner packet was cast to a UDP packet.
-/
inductive StreamFault
  | outOfFuel
  | danglingEntry
  | overwrittenMessage
  | notUdp
  deriving DecidableEq

/-- A computation of a stream. -/
abbrev StreamM := Traced StreamFault EQPacketStream StreamEvent

namespace EQPacketStream

/-- The constructor. -/
def fresh (streamid : EQStreamID) (dir : UInt8) (arqSeqGiveUp : UInt16) (sessionTracking : Bool)
    : EQPacketStream :=
  { streamid, dir, arqSeqGiveUp, sessionTracking
    cache := .empty
    arqSeqExp := 0
    fragment := .fresh
    sessionId := 0
    sessionKey := 0
    sessionClientPort := 0
    sessionClientIP := 0
    maxLength := 0
    replaying := none }

-----------------------------------------------------------------------------------------
-- Cache and session bookkeeping
-----------------------------------------------------------------------------------------

/-- The window test of `OP_Packet` and `OP_Oversized`, on the integers the source widens the
sequence numbers to.
-/
def isFuture (arqSeqExp seq : UInt16) : Bool :=
  (arqSeqExp < seq && seq.toNat < arqSeqExp.toNat + arqSeqWrapCutoff)
    || decide ((seq.toNat : Int) < arqSeqExp.toNat - arqSeqWrapCutoff)

/-- The stream with a packet stored in the cache. -/
def stored (s : EQPacketStream) (seq : UInt16) (packet : EQProtocolPacket) : EQPacketStream :=
  { s with cache := s.cache.insert seq packet.copy }

/-- The stream after `reset` has freed the cache: nothing of the session is left but the
negotiated length and the fragment buffer's storage.
-/
def cleared (s : EQPacketStream) : EQPacketStream :=
  { s with
    cache := .empty
    fragment := s.fragment.reset
    arqSeqExp := 0
    sessionClientPort := 0
    sessionClientIP := 0
    sessionId := 0
    sessionKey := 0 }

def setCache (seq : UInt16) (packet : EQProtocolPacket) : StreamM Unit := do
  let s ← Traced.get
  match s.cache.find? seq with
  | none => Traced.modify (·.stored seq packet)
  | some _ =>
      -- Replacing an entry: the new data has to be valid.
      Traced.when (packet.passesCRC s.sessionKey) do
        Traced.emit (.deletePacket seq)
        Traced.modify (·.stored seq packet)

def resetCache : StreamM Unit := do
  let s ← Traced.get
  Traced.forEach (fun seq => Traced.emit (.deletePacket seq)) s.cache.keys
  Traced.modify fun s => { s with cache := .empty }

def reset : StreamM Unit := do
  resetCache
  Traced.modify cleared

def close (context : StreamContext) (sessionId : UInt32) : StreamM Unit := do
  let s ← Traced.get
  Traced.when (sessionId = s.sessionId) do
    reset
    Traced.modify fun s => { s with sessionTracking := context.sessionTracking }

/-- `receiveSessionKey`: a key for this session, sent by another stream. -/
def receiveSessionKey (sessionId : UInt32) (streamid : EQStreamID) (key : UInt32)
    (s : EQPacketStream)
    : EQPacketStream :=
  if streamid ≠ s.streamid ∧ s.sessionId = sessionId then { s with sessionKey := key } else s

/-- The length a session negotiated, under the ceiling. -/
def clampLength (length : UInt32) : UInt32 :=
  if length > maxPacketSize then maxPacketSize else length

/-- The stream after the fields of a session request have been read. -/
def requested (s : EQPacketStream) (packet : EQProtocolPacket) : EQPacketStream :=
  { s with
    sessionId := eqntohuint32 (packet.payload.drop 4)
    maxLength := clampLength (eqntohuint32 (packet.payload.drop 8))
    arqSeqExp := 0 }

/-- The stream after the fields of a session response have been read. -/
def responded (s : EQPacketStream) (packet : EQProtocolPacket) : EQPacketStream :=
  { s with
    sessionId := eqntohuint32 packet.payload
    sessionKey := eqntohuint32 (packet.payload.drop 4)
    maxLength := clampLength (eqntohuint32 (packet.payload.drop 11))
    arqSeqExp := 0 }

/-- `sizeof(SessionRequestStruct)`. -/
def sessionRequestSize : UInt32 := 22

/-- `sizeof(SessionResponseStruct)`. -/
def sessionResponseSize : UInt32 := 19

/-- A disconnect is ignored when tracking is on and it names another session. -/
def ignoresDisconnect (s : EQPacketStream) (packet : EQProtocolPacket) : Bool :=
  s.sessionTracking && s.sessionId != eqntohuint32 (packet.payload.drop 1)

/-- Remember the client's side of the session, which only an outer packet can name. -/
def latch (header : Option IPHeader) (port : IPHeader → UInt16) (ip : IPHeader → UInt32)
    : StreamM Unit :=
  match header with
  | none => Traced.fault .notUdp
  | some header =>
      Traced.modify fun s =>
        { s with sessionClientPort := port header, sessionClientIP := ip header }

-----------------------------------------------------------------------------------------
-- Processing one packet
-----------------------------------------------------------------------------------------

/-- Act on an item of a carrier, given how to process an inner packet. -/
def perform (processInner : EQProtocolPacket → StreamM Unit) : Item → StreamM Unit
  | .message call => Traced.emit (.dispatchPacket call)
  | .subpacket packet => processInner packet

/-- `OP_Packet`. -/
def processSequenced (processInner : EQProtocolPacket → StreamM Unit)
    (packet : EQProtocolPacket)
    : StreamM Unit := do
  let s ← Traced.get
  if packet.arqSeq = s.arqSeqExp then
    Traced.modify fun s => { s with arqSeqExp := s.arqSeqExp + 1 }
    perform processInner (unwrapPacket packet)
  else Traced.when (isFuture s.arqSeqExp packet.arqSeq) (setCache packet.arqSeq packet)

/-- The bytes of a message are intact while nothing is copied over them and the buffer is
not replaced by a larger one.
-/
def leavesMessage (message : EQPacketFragmentSequence) (after : EQPacketStream)
    : StreamEvent → Bool
  | .fragmentCopy write =>
      decide (message.dataSize ≤ write.offset ∨ write.length = 0)
        && after.fragment.dataAllocSize == message.dataAllocSize
  | _ => true

/-- Process the content of a completed message. An inner packet is read straight from the
buffer, so the buffer must not change under it.
-/
def processFragment (processInner : EQProtocolPacket → StreamM Unit)
    (message : EQPacketFragmentSequence)
    : StreamM Unit := do
  let (_, seen) ←
    Traced.listen (perform processInner (unwrapFragment message.data message.dataSize))
  let after ← Traced.get
  if seen.all (leavesMessage message after) then pure () else Traced.fault .overwrittenMessage

/-- `OP_Oversized`. -/
def processOversized (processInner : EQProtocolPacket → StreamM Unit)
    (packet : EQProtocolPacket)
    : StreamM Unit := do
  let s ← Traced.get
  if packet.arqSeq = s.arqSeqExp then
    let (fragment, write) := s.fragment.addFragment packet
    Traced.modify fun s => { s with arqSeqExp := s.arqSeqExp + 1, fragment }
    Traced.forEach (fun write => Traced.emit (.fragmentCopy write)) write.toList
    Traced.when fragment.isComplete do
      Traced.emit (.completedOversized (readBytes fragment.data fragment.dataSize))
      processFragment processInner fragment
      Traced.modify fun s => { s with fragment := s.fragment.reset }
  else Traced.when (isFuture s.arqSeqExp packet.arqSeq) (setCache packet.arqSeq packet)

/-- `OP_SessionRequest`. -/
def processSessionRequest (packet : EQProtocolPacket) (header : Option IPHeader)
    : StreamM Unit :=
  Traced.when (packet.payloadLength = sessionRequestSize) do
    let s ← Traced.get
    Traced.modify (·.requested packet)
    Traced.when s.sessionTracking (latch header IPHeader.sourcePort IPHeader.sourceIP)

/-- `OP_SessionResponse`. -/
def processSessionResponse (packet : EQProtocolPacket) (header : Option IPHeader)
    : StreamM Unit :=
  Traced.when (packet.payloadLength = sessionResponseSize) do
    let s ← Traced.get
    Traced.modify (·.responded packet)
    Traced.emit
      (.sessionKey (s.responded packet).sessionId s.streamid (s.responded packet).sessionKey)
    Traced.when s.sessionTracking (latch header IPHeader.destPort IPHeader.destIP)

/-- `OP_SessionDisconnect`. -/
def processSessionDisconnect (context : StreamContext) (packet : EQProtocolPacket)
    : StreamM Unit := do
  let s ← Traced.get
  Traced.when (!s.ignoresDisconnect packet) do
    Traced.modify fun s => { s with arqSeqExp := 0 }
    resetCache
    Traced.when s.sessionTracking
      (Traced.modify fun s => { s with sessionClientPort := 0, sessionClientIP := 0 })
    Traced.emit (.closing s.sessionId s.streamid)
    Traced.when context.closingConnected (close context s.sessionId)

/-- The switch on the kind of a packet, given how to process an inner one. -/
def processNetOpCode (context : StreamContext) (processInner : EQProtocolPacket → StreamM Unit)
    (packet : EQProtocolPacket) (header : Option IPHeader)
    : StreamM Unit :=
  if IS_APP_OPCODE packet.netOp then
    -- An app opcode directly on the wire.
    Traced.emit (.dispatchPacket ⟨packet.netOp, packet.payload, packet.payloadLength.toNat⟩)
  else if packet.netOp = OP_Combined then
    Traced.forEach (perform processInner) (unrollCombined packet)
  else if packet.netOp = OP_AppCombined then
    Traced.forEach (perform processInner) (unrollAppCombined packet)
  else if packet.netOp = OP_Packet then processSequenced processInner packet
  else if packet.netOp = OP_Oversized then processOversized processInner packet
  else if packet.netOp = OP_SessionRequest then processSessionRequest packet header
  else if packet.netOp = OP_SessionResponse then processSessionResponse packet header
  else if packet.netOp = OP_SessionDisconnect then processSessionDisconnect context packet
  else
    -- Acknowledgements, keep-alives, statistics and unknown opcodes.
    pure ()

/-- `EQPacketStream::processPacket`. Only an outer packet has addresses. The recursion into
inner packets has no bound of its own in the source.
-/
def processPacket (context : StreamContext)
    : Nat → EQProtocolPacket → Option IPHeader → StreamM Unit
  | 0, _, _ => Traced.fault .outOfFuel
  | fuel + 1, packet, header => do
      let before ← Traced.get
      Traced.emit (.processing before packet)
      processNetOpCode context (fun inner => processPacket context fuel inner none) packet header

-----------------------------------------------------------------------------------------
-- Processing the cache
-----------------------------------------------------------------------------------------

/-- Give up on missing packets: skip to the next expected number the cache has. -/
def skipMissing : Nat → StreamM Unit
  | 0 => Traced.fault .outOfFuel
  | steps + 1 => do
      let s ← Traced.get
      match s.cache.find? s.arqSeqExp with
      | some _ => pure ()
      | none =>
          Traced.emit (.skipping s)
          Traced.modify fun s => { s with arqSeqExp := s.arqSeqExp + 1 }
          skipMissing steps

/-- Process the entry at the iterator and erase it. The source holds the entry across the
call and then erases and frees it, so the entry must not have been freed meanwhile.
-/
def replay (context : StreamContext) (fuel : Nat) (seq : UInt16) (packet : EQProtocolPacket)
    : StreamM (Option UInt16) := do
  Traced.modify fun s => { s with replaying := some seq }
  let (_, seen) ← Traced.listen (processPacket context fuel packet none)
  if .deletePacket seq ∈ seen then Traced.fault .danglingEntry
  else
    let s ← Traced.get
    Traced.emit (.advancing s)
    Traced.emit (.deletePacket seq)
    Traced.modify fun s => { s with cache := s.cache.erase seq, replaying := none }
    -- A sequence that starts over is followed from the front of the cache.
    pure (if s.arqSeqExp = 0 then (s.cache.erase seq).first? else s.cache.next? seq)

/-- The loop over immediate followers, from an iterator position. -/
def follow (context : StreamContext) (fuel : Nat) : Nat → Option UInt16 → StreamM Unit
  | 0, _ => Traced.fault .outOfFuel
  | _ + 1, none => pure ()
  | steps + 1, some seq => do
      let s ← Traced.get
      match s.cache.find? seq with
      | none => Traced.fault .danglingEntry
      | some packet =>
          -- The iterator may have moved past the expected packet.
          if packet.arqSeq ≠ s.arqSeqExp then pure ()
          else if packet.passesCRC s.sessionKey then
            let next ← replay context fuel seq packet
            follow context fuel steps next
          else
            Traced.emit (.deletePacket seq)
            Traced.modify fun s => { s with cache := s.cache.erase seq }

/-- More numbers than `skipMissing` can pass over before it comes round. -/
def skipBound : Nat := 65536

/-- `EQPacketStream::processCache`. -/
def processCache (context : StreamContext) (fuel : Nat) : StreamM Unit := do
  let s ← Traced.get
  Traced.when (s.arqSeqGiveUp.toNat ≤ s.cache.size) (skipMissing (skipBound + 1))
  let s ← Traced.get
  follow context fuel fuel
    (if (s.cache.find? s.arqSeqExp).isSome then some s.arqSeqExp else none)

-----------------------------------------------------------------------------------------
-- Packets arriving
-----------------------------------------------------------------------------------------

/-- The stream takes only session packets before it has a session key. -/
def awaitsSession (s : EQPacketStream) (packet : EQProtocolPacket) : Bool :=
  packet.netOp != OP_SessionRequest && packet.netOp != OP_SessionResponse && s.sessionKey == 0

/-- The packet belongs to another client than the one the stream is latched to. -/
def latchedElsewhere (s : EQPacketStream) (header : IPHeader) : Bool :=
  s.sessionClientPort != 0 && s.sessionClientIP != 0
    && ((s.dir == DIR_Server && s.sessionClientPort != header.destPort)
      || (s.dir == DIR_Client && s.sessionClientPort != header.sourcePort)
      || (s.dir == DIR_Server && s.sessionClientIP != header.destIP)
      || (s.dir == DIR_Client && s.sessionClientIP != header.sourceIP))

/-- Ports whose checksummed packets are dropped unseen. -/
def isIgnoredPort (port : UInt16) : Bool :=
  port == 8066 || port == 8067 || port == 8242 || port == 1900

/-- The gates in front of `processPacket`: the decoded packet, or `none` for a packet the
stream drops.
-/
def accept (context : StreamContext) (s : EQPacketStream) (header : IPHeader)
    (packet : EQProtocolPacket)
    : Option EQProtocolPacket :=
  if s.awaitsSession packet then none
  else if s.latchedElsewhere header then none
  else if packet.hasCRC && (isIgnoredPort header.sourcePort || isIgnoredPort header.destPort)
  then none
  else if !packet.passesCRC s.sessionKey then none
  else packet.decode context.uncompress s.maxLength

/-- `EQPacketStream::handlePacket`, on the UDP payload of a packet. -/
def handlePacket (context : StreamContext) (fuel : Nat) (header : IPHeader) (datagram : Bytes)
    : StreamM Unit := do
  let s ← Traced.get
  match accept context s header (.ofDatagram datagram) with
  | none => pure ()
  | some packet =>
      processPacket context fuel packet (some header)
      let s ← Traced.get
      Traced.when (!s.cache.isEmpty) (processCache context fuel)

/-- What a stream is called with from outside. -/
inductive Arrival
  | packet (header : IPHeader) (datagram : Bytes)
  | sessionKey (sessionId : UInt32) (streamid : EQStreamID) (key : UInt32)
  | close (sessionId : UInt32)
  deriving DecidableEq

/-- One call from outside. -/
def arrive (context : StreamContext) (fuel : Nat) : Arrival → StreamM Unit
  | .packet header datagram => handlePacket context fuel header datagram
  | .sessionKey sessionId streamid key =>
      Traced.modify (receiveSessionKey sessionId streamid key)
  | .close sessionId => close context sessionId

/-- A whole run of calls. -/
def run (context : StreamContext) (fuel : Nat) (arrivals : List Arrival) : StreamM Unit :=
  Traced.forEach (arrive context fuel) arrivals

-----------------------------------------------------------------------------------------
-- A stream on its own, and datagrams for it
-----------------------------------------------------------------------------------------

/-- Nothing to inflate, and the `closing` signal unconnected. -/
def alone : StreamContext :=
  { uncompress := fun _ _ => none, closingConnected := false, sessionTracking := false }

/-- The addresses of a server's packets to a client. -/
def serverHeader : IPHeader :=
  { sourceIP := 0x0a000001, destIP := 0xc0a80002, sourcePort := 9000, destPort := 50000 }

/-- The server-to-client zone stream of a box, giving up at 32 cached packets. -/
def boxStream : EQPacketStream := fresh .zone2client DIR_Server 32 false

/-- The session response that hands out session key 7. -/
def responseArrival : Arrival := .packet serverHeader (sessionResponseDatagram 9 7 512)

/-- A sequenced packet under session key 7. -/
def sequencedArrival (kind : UInt8) (seq : Nat) (payload : Bytes) : Arrival :=
  .packet serverHeader (sequencedDatagram kind (UInt16.ofNat seq) payload 7)

/-- An `OP_Packet` with a one-byte message. -/
def messageArrival (seq : Nat) : Arrival := sequencedArrival 0x09 seq [0x05, 0x06, 0x01]

end EQPacketStream

end Scry
