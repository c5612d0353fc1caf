import Scry.Registry.BoxRegistry

/-! Which box a zone packet belongs to.
Routing binds a box to a zone tuple on the way, so the lookups are tried in the source's
order and each returns the registry it leaves.
-/

namespace Scry

/-- What `EQPacket::dispatchPacket` reads of a zone packet. -/
structure ZonePacket where
  srcIp : UInt32
  dstIp : UInt32
  srcPort : UInt16
  dstPort : UInt16
  netOpCode : UInt16
  deriving DecidableEq

/-- The box a packet was matched with, and whether its source is the box's client. -/
structure Route where
  box : Handle
  srcIsClient : Bool
  deriving DecidableEq

/-- Where a zone packet goes: to the streams of a box, to the global streams, or nowhere. -/
inductive Destination
  | zoneStreams (route : Route)
  | globalStreams (srcIsClient : Bool)
  | dropped
  deriving DecidableEq

/-- How long after its world handshake an unclaimed zone session is bound to a box. -/
def kZoneBindWindowMs : Int := 15000

namespace Box

/-- The zone session a box is bound to. -/
def zoneTuple (b : Box) : UInt32 × UInt16 × UInt16 :=
  (b.clientIp, b.zoneClientPort, b.zoneServerPortBound)

/-- The zone session a box is bound to and the one it expects. -/
def zone (b : Box) : (UInt32 × UInt16 × UInt16) × UInt32 × UInt16 :=
  (b.zoneTuple, b.expectedZoneServerIp, b.expectedZoneServerPort)

def bound (clientPort serverPort : UInt16) (b : Box) : Box :=
  { b with zoneClientPort := clientPort, zoneServerPortBound := serverPort }

/-- The box with a zone packet of its own seen. -/
def stamped (nowMs : Int) (b : Box) : Box :=
  { b with lastSeenMs := nowMs, packetCount := b.packetCount + 1 }

/-- Two addresses of one /24 network. -/
def sameSubnet (a b : UInt32) : Bool := (a ^^^ b) &&& 0xffffff00 == 0

/-- What `lookupByExpectedZone` asks of a box. -/
def expectsZone (clientIp serverIp : UInt32) (serverZonePort : UInt16) (b : Box) : Bool :=
  b.clientIp == clientIp
    && b.zoneClientPort == 0
    && (b.expectedZoneServerIp == 0 || b.expectedZoneServerIp == serverIp)
    && b.expectedZoneServerPort == serverZonePort

/-- What `lookupByRecentWorld` asks of a box. -/
def recentlyInWorld (clientIp serverIp : UInt32) (nowMs windowMs : Int) (b : Box) : Bool :=
  b.clientIp == clientIp
    && b.zoneClientPort == 0
    && b.clientWorldPort != 0
    && b.serverWorldIp != 0
    && sameSubnet b.serverWorldIp serverIp
    && decide (nowMs - b.lastSeenMs ≤ windowMs)

end Box

/-- The best box so far, after looking at another one. -/
def laterOf (time : Box → Int) : Option Box → Box → Option Box
  | none, b => some b
  | some best, b => if time best < time b then some b else some best

/-- The first of the boxes with the greatest time. -/
def latest (time : Box → Int) (boxes : List Box) : Option Box := boxes.foldl (laterOf time) none

namespace BoxRegistry

def lookupBoundZone (r : BoxRegistry) (clientIp : UInt32)
    (clientZonePort serverZonePort : UInt16)
    : Option Box :=
  r.boxes.find? fun b =>
    b.clientIp = clientIp
      ∧ b.zoneClientPort = clientZonePort
      ∧ b.zoneServerPortBound = serverZonePort

def hasClient (r : BoxRegistry) (clientIp : UInt32) : Bool :=
  r.boxes.any (·.clientIp == clientIp)

def lookupByExpectedZone (r : BoxRegistry) (clientIp serverIp : UInt32)
    (serverZonePort : UInt16)
    : Option Box :=
  latest Box.zoneAwaitMs (r.boxes.filter (Box.expectsZone clientIp serverIp serverZonePort))

def lookupByRecentWorld (r : BoxRegistry) (clientIp serverIp : UInt32) (nowMs windowMs : Int)
    : Option Box :=
  latest Box.lastSeenMs (r.boxes.filter (Box.recentlyInWorld clientIp serverIp nowMs windowMs))

/-- `pickBox`, and the registry it leaves. -/
def pickBox (r : BoxRegistry) (packet : ZonePacket) (nowMs : Int)
    : Option Route × BoxRegistry :=
  match r.lookupBoundZone packet.srcIp packet.srcPort packet.dstPort with
  | some box => (some ⟨box.handle, true⟩, r)
  | none =>
  match r.lookupBoundZone packet.dstIp packet.dstPort packet.srcPort with
  | some box => (some ⟨box.handle, false⟩, r)
  | none =>
  match r.lookupByExpectedZone packet.srcIp packet.dstIp packet.dstPort with
  | some box =>
      (some ⟨box.handle, true⟩, r.update box.handle (.bound packet.srcPort packet.dstPort))
  | none =>
  match r.lookupByExpectedZone packet.dstIp packet.srcIp packet.srcPort with
  | some box =>
      (some ⟨box.handle, false⟩, r.update box.handle (.bound packet.dstPort packet.srcPort))
  | none =>
  -- Nobody claimed the port: a session request goes by the recency of world traffic.
  if packet.netOpCode = OP_SessionRequest ∧ r.hasClient packet.srcIp then
    match r.lookupByRecentWorld packet.srcIp packet.dstIp nowMs kZoneBindWindowMs with
    | some box =>
        (some ⟨box.handle, true⟩, r.update box.handle (.bound packet.srcPort packet.dstPort))
    | none => (none, r)
  else (none, r)

/-- The zone branch of `EQPacket::dispatchPacket`. -/
def dispatchZone (r : BoxRegistry) (clientAddr : UInt32) (packet : ZonePacket) (nowMs : Int)
    : Destination × BoxRegistry :=
  match r.pickBox packet nowMs with
  | (some route, picked) =>
      (.zoneStreams route, picked.update route.box (.stamped nowMs))
  | (none, picked) =>
      if picked.boxes.length ≤ 1 then
        (.globalStreams (packet.srcIp == clientAddr), picked)
      else (.dropped, picked)

end BoxRegistry

-----------------------------------------------------------------------------------------
-- Runs
-----------------------------------------------------------------------------------------

/-- What happens to a registry. -/
inductive RegistryOp
  | observe (clientIp serverIp : UInt32) (clientWorldPort serverWorldPort : UInt16)
    (nowMs : Int)
  | enterWorld (h : Handle) (packet : DecodedPacket)
  | promoteByName (h : Handle) (name : String)
  | setActiveCharacterId (id : BoxId)
  | evictStale (nowMs ttlMs : Int)
  | zoneServerInfo (h : Handle) (packet : DecodedPacket) (nowMs : Int)
  | zonePacket (clientAddr : UInt32) (packet : ZonePacket) (nowMs : Int)
  deriving DecidableEq

namespace BoxRegistry

variable (nameHash : String → UInt64)

/-- The registry one operation leaves. -/
def step : RegistryOp → BoxRegistry → BoxRegistry
  | .observe clientIp serverIp clientWorldPort serverWorldPort nowMs, r =>
      r.observe clientIp serverIp clientWorldPort serverWorldPort nowMs
  | .enterWorld h packet, r => NamePromoter.onDecodedPacket nameHash r h packet
  | .promoteByName h name, r => r.promoteByName nameHash h name
  | .setActiveCharacterId id, r => r.setActiveCharacterId id
  | .evictStale nowMs ttlMs, r => r.evictStale nowMs ttlMs
  | .zoneServerInfo h packet nowMs, r => ZoneServerObserver.onDecodedPacket r h packet nowMs
  | .zonePacket clientAddr packet nowMs, r => (r.dispatchZone clientAddr packet nowMs).2

end BoxRegistry
end Scry
