import Scry.Backend.BoxPipeline
import Scry.Library.Components
import Scry.Registry.ZoneTuples

/-! The packet engine. The ports and addresses of a captured packet tell which box it is of and
whether it is of that box's world or its zone session; each box has streams of its own for both,
and only the first one shares the engine's global streams.
-/

namespace Scry

-----------------------------------------------------------------------------------------
-- Packets and streams
-----------------------------------------------------------------------------------------

def ChatServerPort : UInt16 := 5998

def WorldServerGeneralMinPort : UInt16 := 9000

def WorldServerGeneralMaxPort : UInt16 := 9020

def WorldServerChatPort : UInt16 := 9876

def WorldServerChat2Port : UInt16 := 9875

def WorldServerUCSPort : UInt16 := 9877

def LoginServerMinPort : UInt16 := 15900

def LoginServerMaxPort : UInt16 := 15910

/-- A UDP packet as the engine is given it. -/
structure UdpPacket where
  header : IPHeader
  datagram : Bytes
  deriving DecidableEq

namespace UdpPacket

def isWorldPort (port : UInt16) : Bool :=
  WorldServerGeneralMinPort ≤ port && port ≤ WorldServerGeneralMaxPort

def isLoginPort (port : UInt16) : Bool :=
  LoginServerMinPort ≤ port && port ≤ LoginServerMaxPort

/-- One of the packet's ports is of a kind. -/
def hasPort (p : UdpPacket) (kind : UInt16 → Bool) : Bool :=
  kind p.header.destPort || kind p.header.sourcePort

/-- The packet goes past every stream: chat and login traffic is dropped, and the chat of a UCS
session is decoded on its own.
-/
def passesBy (p : UdpPacket) : Bool :=
  p.hasPort (· == ChatServerPort)
    || p.hasPort (· == WorldServerChatPort)
    || p.hasPort (· == WorldServerChat2Port)
    || p.hasPort (· == WorldServerUCSPort)
    || p.hasPort isLoginPort

/-- What is left over is taken for zone traffic. -/
def isZone (p : UdpPacket) : Bool := !p.passesBy && !p.hasPort isWorldPort

/-- What the zone branch reads of it. -/
def zonePacket (p : UdpPacket) : ZonePacket :=
  { srcIp := p.header.sourceIP
    dstIp := p.header.destIP
    srcPort := p.header.sourcePort
    dstPort := p.header.destPort
    netOpCode := (EQProtocolPacket.ofDatagram p.datagram).netOp }

/-- The session that the packet is of if its source is the client, and if its destination is. -/
def fromClient (p : UdpPacket) : UInt32 × UInt16 × UInt16 :=
  (p.header.sourceIP, p.header.sourcePort, p.header.destPort)

def toClient (p : UdpPacket) : UInt32 × UInt16 × UInt16 :=
  (p.header.destIP, p.header.destPort, p.header.sourcePort)

end UdpPacket

/-- Whose streams: the engine's global ones, which the first box has for its own, or the pair
that another box has for its world session or for its zone session.
-/
inductive StreamOwner
  | globals
  | world (box : Handle)
  | zone (box : Handle)
  deriving DecidableEq

namespace EQStreamID

/-- The other direction of a session. -/
def sibling : EQStreamID → EQStreamID
  | client2world => world2client
  | world2client => client2world
  | client2zone => zone2client
  | zone2client => client2zone

def all : List EQStreamID := [client2world, world2client, client2zone, zone2client]

end EQStreamID

namespace StreamOwner

/-- The streams that hear of a session key: `dispatchSessionKey` tells all global ones, a box's
stream only its sibling.
-/
def keyed : StreamOwner → EQStreamID → List EQStreamID
  | globals, _ => EQStreamID.all
  | _, id => [id.sibling]

/-- The other streams that `closeStream` closes. No box's stream is connected with it. -/
def closed : StreamOwner → EQStreamID → List EQStreamID
  | globals, id => EQStreamID.all.filter (· ≠ id)
  | _, _ => []

/-- What other streams are called with when one records an event. -/
def relayed (owner : StreamOwner) (e : EQStreamID × StreamEvent)
    : List (EQStreamID × EQPacketStream.Arrival) :=
  match e.2 with
  | .sessionKey sessionId streamid key =>
      (owner.keyed e.1).map fun id => (id, .sessionKey sessionId streamid key)
  | .closing sessionId _ => (owner.closed e.1).map fun id => (id, .close sessionId)
  | _ => []

end StreamOwner

-----------------------------------------------------------------------------------------
-- Where a packet goes
-----------------------------------------------------------------------------------------

namespace BoxRegistry

/-- The registry after `dispatchPacket` has shown it a packet of a world server. -/
def observed (r : BoxRegistry) (p : UdpPacket) (nowMs : Int) : BoxRegistry :=
  if UdpPacket.isWorldPort p.header.sourcePort then
    r.observe p.header.destIP p.header.sourceIP p.header.destPort p.header.sourcePort nowMs
  else if UdpPacket.isWorldPort p.header.destPort then
    r.observe p.header.sourceIP p.header.destIP p.header.sourcePort p.header.destPort nowMs
  else r

/-- Whose streams a box's are. -/
def ownerOf (r : BoxRegistry) (own : Handle → StreamOwner) (h : Handle) : StreamOwner :=
  if (r.box? h).any (·.isPrimary) then .globals else own h

/-- The stream of a packet of a world server. -/
def worldStream (r : BoxRegistry) (p : UdpPacket) : Option (StreamOwner × EQStreamID) :=
  if UdpPacket.isWorldPort p.header.sourcePort then
    (r.lookupByWorld p.header.destIP p.header.destPort p.header.sourcePort).map fun b =>
      (r.ownerOf .world b.handle, .world2client)
  else
    (r.lookupByWorld p.header.sourceIP p.header.sourcePort p.header.destPort).map fun b =>
      (r.ownerOf .world b.handle, .client2world)

/-- The zone stream of a direction. -/
def zoneStream (srcIsClient : Bool) : EQStreamID :=
  if srcIsClient then .client2zone else .zone2client

/-- `EQPacket::dispatchPacket`: the stream that a packet goes to, and the registry after it.
`m_client_addr`, which only tells the direction of traffic that no box claims, is given.
-/
def dispatchPacket (r : BoxRegistry) (clientAddr : UInt32) (p : UdpPacket) (nowMs : Int)
    : Option (StreamOwner × EQStreamID) × BoxRegistry :=
  let seen := r.observed p nowMs
  if p.passesBy then (none, seen)
  else if p.hasPort UdpPacket.isWorldPort then (seen.worldStream p, seen)
  else
    match seen.dispatchZone clientAddr p.zonePacket nowMs with
    | (.zoneStreams route, after) =>
        (some (after.ownerOf .zone route.box, zoneStream route.srcIsClient), after)
    | (.globalStreams srcIsClient, after) => (some (.globals, zoneStream srcIsClient), after)
    | (.dropped, after) => (none, after)

end BoxRegistry

-----------------------------------------------------------------------------------------
-- The engine
-----------------------------------------------------------------------------------------

/-- `EQPacket`. The streams of a box are there from the start: they are as they are made until
the box is, and a handle is never used again.
-/
structure EQPacket where
  boxes : BoxRegistry
  streams : StreamOwner → EQStreamID → EQPacketStream

/-- A computation of an owner's streams, and one of the engine. -/
abbrev OwnerM := Traced StreamFault (EQStreamID → EQPacketStream) (EQStreamID × StreamEvent)

abbrev EngineM := Traced StreamFault EQPacket (StreamOwner × EQStreamID × StreamEvent)

/-- What an engine is started with, the inflater, and the bound of the model's recursions. -/
structure EngineSettings where
  arqSeqGiveUp : UInt16
  sessionTracking : Bool
  uncompress : Bytes → Nat → Option Bytes
  fuel : Nat

/-- What happens to an engine: a packet is captured, or something else is done to the registry, by
an observer of a stream, by the managers or by the sweep.
-/
inductive EngineOp
  | packet (clientAddr : UInt32) (p : UdpPacket) (nowMs : Int)
  | registry (op : RegistryOp)
  deriving DecidableEq

namespace EngineSettings

/-- What surrounds the streams of an owner. Only the global ones are connected with
`closeStream`.
-/
def context (settings : EngineSettings) (owner : StreamOwner) : StreamContext :=
  { uncompress := settings.uncompress
    closingConnected := owner = .globals
    sessionTracking := settings.sessionTracking }

/-- Calls of an owner's streams. -/
def arrive (settings : EngineSettings) (owner : StreamOwner)
    (arrivals : List (EQStreamID × EQPacketStream.Arrival))
    : OwnerM Unit :=
  Traced.calls (fun _ => EQPacketStream.arrive (settings.context owner) settings.fuel) arrivals

/-- `handlePacket` on one of an owner's streams, and what the others hear of it. -/
def handlePacket (settings : EngineSettings) (owner : StreamOwner) (call : EQStreamID × UdpPacket)
    : OwnerM Unit := do
  let (_, seen) ←
    Traced.listen
      (settings.arrive owner [(call.1, .packet call.2.header call.2.datagram)])
  settings.arrive owner (seen.flatMap owner.relayed)

end EngineSettings

namespace EQPacket

variable (nameHash : String → UInt64) (settings : EngineSettings)

/-- The constructor. -/
def started : EQPacket :=
  { boxes := .empty
    streams := fun _ id =>
      .fresh id id.dir settings.arqSeqGiveUp settings.sessionTracking }

/-- The call of a stream that an operation comes to, and the registry after it. -/
def routed (op : EngineOp) (r : BoxRegistry)
    : List (StreamOwner × EQStreamID × UdpPacket) × BoxRegistry :=
  match op with
  | .packet clientAddr p nowMs =>
      let (stream, after) := r.dispatchPacket clientAddr p nowMs
      ((stream.map fun place => (place.1, place.2, p)).toList, after)
  | .registry op => ([], BoxRegistry.step nameHash op r)

/-- One operation. -/
def step (op : EngineOp) : EngineM Unit := fun e =>
  let (call, boxes) := routed nameHash op e.boxes
  match Traced.calls settings.handlePacket call e.streams with
  | .error fault => .error fault
  | .ok (_, streams, w) => .ok ((), { boxes, streams }, w)

/-- A whole run. -/
def run (ops : List EngineOp) : EngineM Unit := Traced.forEach (step nameHash settings) ops

end EQPacket
end Scry
