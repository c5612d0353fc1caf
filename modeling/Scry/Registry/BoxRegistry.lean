import Mathlib.Data.List.Nodup
import Scry.Library.Machine
import Scry.PacketStream.Stream

/-! The boxes of a host and the characters they play.
A box is known by the handle of its allocation, which plays the part of the source's
pointers: handles are never reused, so a handle that no box has is a dangling pointer.
Ports are in host order; the source keeps both sides of every comparison in network order.
-/

namespace Scry

-----------------------------------------------------------------------------------------
-- Boxes and characters
-----------------------------------------------------------------------------------------

/-- `Box*`. -/
abbrev Handle := Nat

/-- A `box_id`: empty before the first box, the placeholder text of a world tuple, or the
text of a name's digest. The texts of the source are injective in these.
-/
inductive BoxId
  | empty
  | placeholder (clientIp : UInt32) (clientWorldPort serverWorldPort : UInt16)
  | hashed (digest : UInt64)
  deriving DecidableEq

/-- `SessionState`. -/
inductive SessionState
  | Pending
  | Attached
  | Superseded
  | Reaped
  deriving DecidableEq

/-- `Box`, without its streams: every box is given all four of them when it is created. -/
structure Box where
  handle : Handle
  clientIp : UInt32
  clientWorldPort : UInt16
  serverWorldPort : UInt16
  serverWorldIp : UInt32
  firstSeenMs : Int
  lastSeenMs : Int
  packetCount : UInt64
  isPrimary : Bool
  expectedZoneServerIp : UInt32
  expectedZoneServerPort : UInt16
  zoneClientPort : UInt16
  zoneServerPortBound : UInt16
  zoneAwaitMs : Int
  boxId : BoxId
  displayName : String
  state : SessionState
  deriving DecidableEq

/-- A row of the store: a character and its live session. -/
structure Character where
  name : String
  id : BoxId
  session : Handle
  deriving DecidableEq

/-- `BoxRegistry`. `nextHandle` is the allocator's. -/
structure BoxRegistry where
  boxes : List Box
  characters : List Character
  activeCharacterId : BoxId
  nextHandle : Handle
  deriving DecidableEq

namespace Box

/-- The triple `observe` tells world sessions apart by. -/
def worldTuple (b : Box) : UInt32 × UInt16 × UInt16 :=
  (b.clientIp, b.clientWorldPort, b.serverWorldPort)

/-- The placeholder id `observe` gives a box. -/
def placeholderId (b : Box) : BoxId :=
  .placeholder b.clientIp b.clientWorldPort b.serverWorldPort

/-- The box with another packet of its world session seen. -/
def observed (b : Box) (serverIp : UInt32) (nowMs : Int) : Box :=
  { b with lastSeenMs := nowMs, serverWorldIp := serverIp, packetCount := b.packetCount + 1 }

/-- The box under a character's name and the name's id. -/
def named (nameHash : String → UInt64) (name : String) (b : Box) : Box :=
  { b with displayName := name, boxId := .hashed (nameHash name) }

/-- The box of one character, reclassified by which box is that character's live one. -/
def classified (id : BoxId) (live : Option Handle) (b : Box) : Box :=
  if b.boxId = id then
    { b with state := if some b.handle = live then .Attached else .Superseded }
  else b

end Box

namespace BoxRegistry

/-- The constructor. -/
def empty : BoxRegistry :=
  { boxes := [], characters := [], activeCharacterId := .empty, nextHandle := 0 }

-----------------------------------------------------------------------------------------
-- Lookups
-----------------------------------------------------------------------------------------

/-- Follow a pointer. -/
def box? (r : BoxRegistry) (h : Handle) : Option Box := r.boxes.find? (·.handle = h)

def findById (r : BoxRegistry) (id : BoxId) : Option Box := r.boxes.find? (·.boxId = id)

def lookupByWorld (r : BoxRegistry) (clientIp : UInt32)
    (clientWorldPort serverWorldPort : UInt16)
    : Option Box :=
  r.boxes.find? fun b =>
    b.clientIp = clientIp
      ∧ b.clientWorldPort = clientWorldPort
      ∧ b.serverWorldPort = serverWorldPort

def lookupByName (r : BoxRegistry) (name : String) (exclude : Handle) : Option Box :=
  if name = "" then none
  else r.boxes.find? fun b => b.handle ≠ exclude ∧ b.displayName = name

/-- The character's session in the store, or the box itself for a placeholder. -/
def currentBoxFor (r : BoxRegistry) (id : BoxId) : Option Handle :=
  match r.characters.find? (·.id = id) with
  | some c => some c.session
  | none => (r.findById id).map Box.handle

def currentSessionFor (r : BoxRegistry) (name : String) : Option Handle :=
  if name = "" then none else (r.characters.find? (·.name = name)).map Character.session

-----------------------------------------------------------------------------------------
-- Operations
-----------------------------------------------------------------------------------------

/-- Write through a pointer. -/
def update (r : BoxRegistry) (h : Handle) (f : Box → Box) : BoxRegistry :=
  { r with boxes := r.boxes.map fun b => if b.handle = h then f b else b }

/-- `observe` on a tuple no box has. -/
def created (r : BoxRegistry) (clientIp serverIp : UInt32)
    (clientWorldPort serverWorldPort : UInt16) (nowMs : Int)
    : Box :=
  { handle := r.nextHandle
    clientIp, clientWorldPort, serverWorldPort
    serverWorldIp := serverIp
    firstSeenMs := nowMs
    lastSeenMs := nowMs
    packetCount := 1
    isPrimary := r.boxes.isEmpty
    expectedZoneServerIp := 0
    expectedZoneServerPort := 0
    zoneClientPort := 0
    zoneServerPortBound := 0
    zoneAwaitMs := 0
    boxId := .placeholder clientIp clientWorldPort serverWorldPort
    displayName := ""
    state := .Pending }

/-- Append a box; the first one becomes active. -/
def append (r : BoxRegistry) (b : Box) : BoxRegistry :=
  { r with
    boxes := r.boxes ++ [b]
    nextHandle := r.nextHandle + 1
    activeCharacterId :=
      if r.activeCharacterId = .empty then b.boxId else r.activeCharacterId }

def observe (r : BoxRegistry) (clientIp serverIp : UInt32)
    (clientWorldPort serverWorldPort : UInt16) (nowMs : Int)
    : BoxRegistry :=
  match r.lookupByWorld clientIp clientWorldPort serverWorldPort with
  | some hit => r.update hit.handle (·.observed serverIp nowMs)
  | none => r.append (r.created clientIp serverIp clientWorldPort serverWorldPort nowMs)

def setActiveCharacterId (r : BoxRegistry) (id : BoxId) : BoxRegistry :=
  match r.findById id with
  | none => r
  | some _ => { r with activeCharacterId := id }

/-- A newer session takes a row over; the guard reads the row's session through its pointer. -/
def adopts (boxes : List Box) (c : Character) (newSession : Box) : Bool :=
  match boxes.find? (·.handle = c.session) with
  | some session => session.firstSeenMs ≤ newSession.firstSeenMs
  | none => true

def upsertCharacter (boxes : List Box) (id : BoxId) (name : String) (newSession : Box)
    : List Character → List Character
  | [] => [{ name, id, session := newSession.handle }]
  | c :: rest =>
      if c.id = id then
        { c with
          name
          session := if adopts boxes c newSession then newSession.handle else c.session }
          :: rest
      else c :: upsertCharacter boxes id name newSession rest

def onPromoted (r : BoxRegistry) (box : Box) (oldBoxId : BoxId) : BoxRegistry :=
  { r with
    activeCharacterId :=
      if r.activeCharacterId = oldBoxId then box.boxId else r.activeCharacterId
    characters := upsertCharacter r.boxes box.boxId box.displayName box r.characters }

/-- Adopt a new character when the active box never resolved one. -/
def adoptActive (r : BoxRegistry) (id : BoxId) : BoxRegistry :=
  match r.findById r.activeCharacterId with
  | some active => if active.displayName = "" then { r with activeCharacterId := id } else r
  | none => { r with activeCharacterId := id }

/-- Reclassify a character's sessions. -/
def reclassify (r : BoxRegistry) (id : BoxId) : BoxRegistry :=
  { r with boxes := r.boxes.map (Box.classified id (r.currentBoxFor id)) }

/-- Put a box under a name and file it in the store, as both promotion paths do. -/
def promote (nameHash : String → UInt64) (r : BoxRegistry) (b : Box) (name : String)
    : BoxRegistry :=
  (r.update b.handle (Box.named nameHash name)).onPromoted (b.named nameHash name) b.boxId

def promoteByName (nameHash : String → UInt64) (r : BoxRegistry) (h : Handle) (name : String)
    : BoxRegistry :=
  match r.box? h with
  | none => r
  | some b =>
      if name = "" then r
      else if b.displayName = name then r
      else
        let id := BoxId.hashed (nameHash name)
        let promoted := promote nameHash r b name
        let adopted :=
          if (promoted.lookupByName name h).isNone then promoted.adoptActive id else promoted
        adopted.reclassify id

/-- What `evictStale` reaps. -/
def isVictim (r : BoxRegistry) (nowMs ttlMs : Int) (b : Box) : Bool :=
  !b.isPrimary
    && some b.handle != r.currentBoxFor r.activeCharacterId
    && decide (b.lastSeenMs < nowMs - ttlMs)

/-- A victim is marked reaped and then freed; rows of victims go with them. -/
def evictStale (r : BoxRegistry) (nowMs ttlMs : Int) : BoxRegistry :=
  if ttlMs ≤ 0 then r
  else
    let victims := (r.boxes.filter (r.isVictim nowMs ttlMs)).map Box.handle
    { r with
      boxes := r.boxes.filter fun b => !r.isVictim nowMs ttlMs b
      characters := r.characters.filter fun c => c.session ∉ victims }

end BoxRegistry

-----------------------------------------------------------------------------------------
-- The observers of a box
-----------------------------------------------------------------------------------------

/-- What a stream's `decodedPacket` signal carries. -/
structure DecodedPacket where
  data : Bytes
  len : Nat
  dir : UInt8
  entry : Option String
  deriving DecidableEq

namespace NamePromoter

def kEnterWorldClientLen : Nat := 72

def kCharNameSlot : Nat := 64

/-- The name in the leading slot, up to its first zero byte, as Latin-1 text. -/
def characterName (data : Bytes) : String :=
  String.ofList
    (((data.take kCharNameSlot).takeWhile (· ≠ 0)).map fun byte => Char.ofNat byte.toNat)

/-- Promotion by `OP_EnterWorld`, once the packet has been recognised. -/
def enterWorld (nameHash : String → UInt64) (r : BoxRegistry) (h : Handle) (name : String)
    : BoxRegistry :=
  match r.box? h with
  | none => r
  | some b =>
      if b.displayName ≠ "" then r
      else if name = "" then r
      else r.promote nameHash b name

def onDecodedPacket (nameHash : String → UInt64) (r : BoxRegistry) (h : Handle)
    (packet : DecodedPacket)
    : BoxRegistry :=
  if packet.entry ≠ some "OP_EnterWorld" then r
  else if packet.dir ≠ DIR_Client then r
  else if packet.len ≠ kEnterWorldClientLen then r
  else enterWorld nameHash r h (characterName packet.data)

end NamePromoter

namespace ZoneServerObserver

/-- `sizeof(zoneServerInfoStruct)`. -/
def kZsiLen : Nat := 130

/-- A box told to zone: it expects the port and is unbound again. -/
def announced (port : UInt16) (nowMs : Int) (b : Box) : Box :=
  { b with
    expectedZoneServerPort := port
    zoneClientPort := 0
    zoneServerPortBound := 0
    zoneAwaitMs := nowMs }

/-- The port behind the host name of a `zoneServerInfoStruct`. -/
def port (data : Bytes) : UInt16 := eqtohuint16 (data.drop 128)

def onDecodedPacket (r : BoxRegistry) (h : Handle) (packet : DecodedPacket) (nowMs : Int)
    : BoxRegistry :=
  if packet.entry ≠ some "OP_ZoneServerInfo" then r
  else if packet.dir ≠ DIR_Server then r
  else if packet.len ≠ kZsiLen then r
  else r.update h (announced (port packet.data) nowMs)

end ZoneServerObserver

end Scry
