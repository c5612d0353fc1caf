import Scry.Items.ItemPacket
import Scry.Library.Reading
import Scry.PacketStream.FragmentSequence
import Scry.PacketStream.Stream

/-! The handlers that the live backend wires without a size check, up to where they go on with
what they decoded. A handler is given the address of a message, and its length if it asks for it.
-/

namespace Scry

/-- A message as it is dispatched, with the memory behind it. No longer one is put together. -/
structure UnsizedMessage extends Buffer where
  length_le : toBuffer.length ≤ kMaxFragmentBuffer.toNat

namespace WireLive

open Reading

def sizeofZonePointStruct : Nat := 24

def sizeofDzSwitchInfo : Nat := 32

def sizeofSpellBuff : Nat := 110

def sizeofSpawnUpdateStruct : Nat := 32

def sizeofRemoveSpawnStruct : Nat := 5

def sizeofPlayerProfileStruct : Nat := 22109

def sizeofGroupDisbandStruct : Nat := 152

/-- The Rust decoders, which are not part of the source. What a handler does not look at before
it goes on is left out of what they return; where a handler stops at an empty result, the decoder
returns none.
-/
structure Decoders where
  playerProfile : Decoder Unit
  newZone : Decoder Unit
  zonePoint : Decoder Unit
  zonePoint_least : zonePoint.least ≤ sizeofZonePointStruct
  dzSwitchInfo : Decoder Unit
  guildMotd : Decoder Unit
  guildRoster : Decoder Unit
  guildExpandedInfo : Decoder Unit
  guildsInZoneList : Decoder Unit
  newGuildInZone : Decoder Unit
  groundSpawn : Decoder Unit
  spawn : Decoder Unit
  wearChange : Decoder Unit
  removeSpawn : Decoder Unit
  npcMoveUpdate : Decoder Unit
  /-- Returns `chan_num`. -/
  channelMessage : Decoder UInt32
  /-- Returns `message_format`. -/
  formattedMessage : Decoder UInt32
  specialMessage : Decoder Unit
  groupMemberList : Decoder Unit
  groupDisband : Decoder Unit
  buff : Decoder Unit

/-- What the handlers ask of the managers before they go on. -/
structure Managers where
  isZoning : Bool
  playerId : UInt16
  /-- `m_messageStrings` has a text for the format. -/
  knowsFormat : UInt32 → Bool

/-- A registered handler: of a length and a direction, it reads the message and tells whether it
goes on with what it decoded.
-/
def PacketHandler := Nat → UInt8 → Reading Bool

/-- `seqBind` of a member that takes the address. -/
def seqBind1 (m : Reading Bool) : PacketHandler := fun _ _ => m

/-- `seqBind` of a member that takes the address and the length. -/
def seqBind2 (m : Nat → Reading Bool) : PacketHandler := fun len _ => m len

/-- `seqBind` of a member that takes the direction, too. -/
def seqBind3 (m : Nat → UInt8 → Reading Bool) : PacketHandler := m

def byte (offset : Nat) : Reading UInt8 := do
  return UInt8.ofNat (← word offset 1)

def u32 (offset : Nat) : Reading UInt32 := do
  return UInt32.ofNat (← word offset 4)

/-- Copy bytes, or make a string of them. -/
def copy (offset count : Nat) : Reading Unit := do
  let _ ← bytes offset count
  return ()

/-- A handler that hands the whole message to a decoder. -/
def whole (d : Decoder Unit) (len : Nat) : Reading Bool :=
  whenDecoded d 0 len fun _ => return true

-----------------------------------------------------------------------------------------
-- The player profile
-----------------------------------------------------------------------------------------

def kSkillsWireOffset : Nat := 4622

def sizeofSkills : Nat := 400

def MAX_BUFFS : Nat := 42

def kMarkers : List Nat := [26, 38, 50, 62, 74, 86]

/-- The loop of `markersOk`, over the markers that are left. -/
def markersAt (off : Nat) : List Nat → Reading Bool
  | [] => return true
  | m :: rest => do
      let v ← u32 (off + m)
      if v ≠ 0xffffffff then return false else markersAt off rest

def markersOk (len off : Nat) : Reading Bool :=
  if off + sizeofSpellBuff > len then return false else markersAt off kMarkers

/-- The loop of `countBuffs`, over the slots that are left, from the one at `b` on. -/
def countBuffs (len b : Nat) : Nat → Nat → Reading Nat
  | 0, n => return n
  | left + 1, n => do
      if b + sizeofSpellBuff > len then return n
      else
        let dur := (UInt32.toInt32 (← u32 b)).toInt
        let sp := (UInt32.toInt32 (← u32 (b + 9))).toInt
        let lvl ← byte (b + 8)
        let occupied :=
          1 ≤ sp ∧ sp ≤ 200000 ∧ 1 ≤ dur ∧ dur ≤ 400000 ∧ 1 ≤ lvl ∧ lvl ≤ 127
        countBuffs len (b + sizeofSpellBuff) left (if occupied then n + 1 else n)

/-- The number of marked slots in a row from `cur` on. -/
def markedRun (len cur : Nat) : Reading Nat := do
  let marked ← markersOk len cur
  -- The slots that `markersOk` accepts lie inside.
  if _h : marked ∧ cur + sizeofSpellBuff ≤ len then
    let more ← markedRun len (cur + sizeofSpellBuff)
    return more + 1
  else return 0
termination_by len - cur
decreasing_by simp only [sizeofSpellBuff] at *; omega

/-- The best run of slots so far, and where it starts. -/
structure BuffArray where
  buffArrayStart : Nat
  bestBuffs : Int
  bestRun : Nat

/-- The search for the array of buffs. -/
def findBuffs (len off : Nat) (best : BuffArray) : Reading BuffArray := do
  if _h : off + sizeofSpellBuff ≤ len then
    let marked ← markersOk len off
    if marked then
      let more ← markedRun len (off + sizeofSpellBuff)
      let run := more + 1
      let nb : Int := ← countBuffs len off MAX_BUFFS 0
      let better := best.bestBuffs < nb ∨ nb = best.bestBuffs ∧ best.bestRun < run
      findBuffs len (off + sizeofSpellBuff * (more + 1)) (if better then ⟨off, nb, run⟩ else best)
    else findBuffs len (off + 1) best
  else return best
termination_by len - off
decreasing_by all_goals simp only [sizeofSpellBuff] at *; omega

/-- `fillProfileStruct`, which tells whether it filled the profile. -/
def fillProfileStruct (d : Decoders) (len : Nat) : Reading Bool := do
  let out ← decode d.playerProfile 0 len
  return out.isSome

def copySkills (len : Nat) : Reading Unit :=
  if kSkillsWireOffset + sizeofSkills ≤ len then copy kSkillsWireOffset sizeofSkills
  else return ()

def copyBuffs (len : Nat) : Reading Unit := do
  let best ← findBuffs len 0x3000 ⟨0, -1, 0⟩
  if 3 ≤ best.bestRun then
    wrapIf (len < best.buffArrayStart)
    let room := toSizeT ((len : Int) - best.buffArrayStart)
    copy best.buffArrayStart (min (MAX_BUFFS * sizeofSpellBuff) room)
  else return ()

/-- The result of `fillProfileStruct` is not looked at. -/
def zonePlayer (d : Decoders) (len : Nat) : Reading Bool := do
  let _ ← fillProfileStruct d len
  copySkills len
  copyBuffs len
  return true

-----------------------------------------------------------------------------------------
-- Zones and guilds
-----------------------------------------------------------------------------------------

def zoneNew (d : Decoders) (len : Nat) (_dir : UInt8) : Reading Bool := whole d.newZone len

/-- The loop of `zonePoints`, over the points that are left. A point that is refused keeps its
place empty.
-/
def decodeZonePoints (d : Decoders) (p : Nat) : Nat → Reading Unit
  | 0 => return ()
  | left + 1 => do
      let _ ← decode d.zonePoint p sizeofZonePointStruct
      decodeZonePoints d (p + sizeofZonePointStruct) left

def zonePoints (d : Decoders) (len : Nat) (_dir : UInt8) : Reading Bool :=
  if len < 4 then return false
  else do
    let count ← u32 0
    if len < 4 + count.toNat * sizeofZonePointStruct then return false
    else
      decodeZonePoints d 4 count.toNat
      return true

def dynamicZonePoints (d : Decoders) (len : Nat) (_dir : UInt8) : Reading Bool :=
  if len = sizeofDzSwitchInfo then whole d.dzSwitchInfo len
  else return len = 8

def guildMOTD (d : Decoders) (len : Nat) : Reading Bool := whole d.guildMotd len

def guildRoster (d : Decoders) (len : Nat) : Reading Bool := whole d.guildRoster len

def expandedGuildInfo (d : Decoders) (len : Nat) : Reading Bool := whole d.guildExpandedInfo len

def guildsInZone (d : Decoders) (len : Nat) : Reading Bool := whole d.guildsInZoneList len

def newGuildInZone (d : Decoders) (len : Nat) : Reading Bool := whole d.newGuildInZone len

-----------------------------------------------------------------------------------------
-- Items
-----------------------------------------------------------------------------------------

/-- The loop of `findNameStart`, from `i` on. -/
def findNameStart (len i : Nat) : Reading (Option Nat) := do
  if _h : i + 1 < len then
    let b ← byte i
    if 0x41 ≤ b ∧ b ≤ 0x5a ∧ 0 < i then
      let before ← byte (i - 1)
      if before = 0 then return some i else findNameStart len (i + 1)
    else findNameStart len (i + 1)
  else return none
termination_by len - i

/-- The loop of `findNul`, from `i` on. -/
def findNul (len i : Nat) : Reading (Option Nat) := do
  if _h : i < len then
    let b ← byte i
    if b = 0 then return some i else findNul len (i + 1)
  else return none
termination_by len - i

/-- A name between two offsets; its length is an `int`. -/
def copyName (start stop : Nat) : Reading Unit := do
  wrapIf (stop < start ∨ 0x7fffffff < stop - start)
  copy start (stop - start)

/-- `parseItemPacket`, as far as it reads; the item itself is `Scry.parseItemPacket`. -/
def readItemPacket (len : Nat) : Reading Bool :=
  if len < kHeaderProbeStart then return false
  else do
    let mark ← byte 20
    if mark ≠ 0 then return false
    else
      let _packetType ← u32 0
      let _stackCount ← u32 21
      let _mainSlot ← u32 25
      let _subSlot ← bytes 29 2
      match ← findNameStart len kHeaderProbeStart with
      | none => return false
      | some nameStart =>
          match ← findNul len nameStart with
          | none => return false
          | some firstNul =>
              let loreStart := firstNul + 1
              match ← findNul len loreStart with
              | none => return false
              | some secondNul =>
                  let postName := secondNul + 1
                  if postName + kParsedItemMinSize > len then return false
                  else
                    copyName nameStart firstNul
                    copyName loreStart secondNul
                    let _idToSlotBitmask ← bytes (postName + 8) 16
                    let _resistsToStats ← bytes (postName + 34) 13
                    let _hpToAc ← bytes (postName + 47) 16
                    return true

def onItemPacket (len : Nat) (_dir : UInt8) : Reading Bool := readItemPacket len

-----------------------------------------------------------------------------------------
-- Spawns
-----------------------------------------------------------------------------------------

def newGroundItem (d : Decoders) (q : Managers) (len : Nat) (dir : UInt8) : Reading Bool :=
  if q.isZoning then return false
  else if dir ≠ DIR_Server then return false
  else whole d.groundSpawn len

def zoneEntry (d : Decoders) (len : Nat) : Reading Bool := whole d.spawn len

def SpawnShell.updateSpawnInfo (d : Decoders) : Reading Bool :=
  whenDecoded d.wearChange 0 sizeofSpawnUpdateStruct fun _ => return true

def Player.updateSpawnInfo (d : Decoders) : Reading Bool :=
  whenDecoded d.wearChange 0 sizeofSpawnUpdateStruct fun _ => return true

/-- `NetStream::readUInt32NC` at `pos`, with the position after it. -/
def readUInt32NC (len pos : Nat) : Reading (UInt32 × Nat) :=
  if 4 ≤ len - pos then do return (← u32 pos, pos + 4)
  else return (0, pos)

/-- `NetStream::readUInt16NC` at `pos`, with the position after it. -/
def readUInt16NC (len pos : Nat) : Reading (UInt16 × Nat) :=
  if 2 ≤ len - pos then do return (UInt16.ofNat (← word pos 2), pos + 2)
  else return (0, pos)

/-- `NetStream::skipBytes` from `pos`. -/
def skipBytes (len pos byteCount : Nat) : Nat :=
  if byteCount ≤ (UInt32.ofNat (len - pos)).toNat then pos + byteCount else pos

/-- What a shroud starts with: the spawn's id, the size, and the position after them. -/
structure ShroudHeader where
  spawnID : UInt32
  spawnStructSize : UInt16
  pos : Nat

def readShroudHeader (len : Nat) : Reading ShroudHeader := do
  let (spawnID, pos) ← readUInt32NC len 0
  let (spawnStructSize, pos) ← readUInt16NC len pos
  return { spawnID, spawnStructSize, pos }

def shroudSpawn (d : Decoders) (q : Managers) (len : Nat) (_dir : UInt8) : Reading Bool := do
  let header ← readShroudHeader len
  wrapIf (header.spawnStructSize < 6)
  let spawnStructSize := (header.spawnStructSize - 6).toNat
  whenDecoded d.spawn header.pos spawnStructSize fun _ =>
    if header.spawnID ≠ q.playerId.toUInt32 then return true
    else do
      copy (skipBytes len header.pos spawnStructSize) sizeofPlayerProfileStruct
      return true

def removeSpawn (d : Decoders) (len : Nat) (dir : UInt8) : Reading Bool :=
  if dir = DIR_Client then return false
  else if len ≠ sizeofRemoveSpawnStruct then return false
  else whenDecoded d.removeSpawn 0 sizeofRemoveSpawnStruct fun _ => return true

def npcMoveUpdate (d : Decoders) (q : Managers) (len : Nat) (_dir : UInt8) : Reading Bool :=
  if len < 13 ∨ 24 < len then return false
  else if q.isZoning then return false
  else whole d.npcMoveUpdate len

-----------------------------------------------------------------------------------------
-- Messages
-----------------------------------------------------------------------------------------

/-- `MT_Tell`, `MT_Group`, `MT_Guild`, `MT_OOC`, `MT_Shout`, `MT_Auction`, `MT_System` and
`MT_Raid`, which come twice when they are the player's own.
-/
def echoedChannels : List UInt32 := [7, 2, 0, 5, 3, 4, 21, 15]

def channelMessage (d : Decoders) (len : Nat) (dir : UInt8) : Reading Bool :=
  whenDecoded d.channelMessage 0 len fun chanNum =>
    if dir = DIR_Client ∧ echoedChannels.contains chanNum then return false else return true

/-- `offsetof(formattedMessageStruct, messages)`. -/
def HEADER_LEN : Nat := 13

/-- An argument of a known format is made a string if it is not empty. -/
def copyArgument (offset : Nat) (size : UInt32) : Reading Unit :=
  if 0 < size then copy offset size.toNat else return ()

/-- The loop of `formatMessage` over the arguments of a known format, from `total` on. The sum
of a size and four is a `uint32_t`; where it is zero, the source stays in this round.
-/
def readArguments (arguments argsLen total : Nat) : Reading Unit := do
  if _h : total < argsLen then
    let curSize ← u32 (arguments + total)
    copyArgument (arguments + total + 4) curSize
    wrapIf (curSize + 4 < curSize)
    if _moves : 0 < (curSize + 4).toNat then
      readArguments arguments argsLen (total + (curSize + 4).toNat)
    else return ()
  else return ()
termination_by argsLen - total
decreasing_by omega

/-- The loop of `formatMessage` over the arguments of an unknown format, from `total` on. -/
def readUnknown (arguments argsLen total : Nat) : Reading Unit := do
  if _h : total + 4 < argsLen then
    let arg_len ← u32 (arguments + total)
    if arg_len = 0 ∨ argsLen < arg_len.toNat then return ()
    else
      copy (arguments + total + 4) arg_len.toNat
      readUnknown arguments argsLen (total + 4 + arg_len.toNat)
  else return ()
termination_by argsLen - total

/-- `formatMessage`, as far as it reads: the text that the arguments are put into is not the
message's.
-/
def formatMessage (q : Managers) (formatid : UInt32) (arguments argsLen : Nat) : Reading Unit :=
  if q.knowsFormat formatid then readArguments arguments argsLen 0
  else readUnknown arguments argsLen 0

def formattedMessage (d : Decoders) (q : Managers) (len : Nat) (dir : UInt8) : Reading Bool :=
  if dir = DIR_Client then return false
  else
    whenDecoded d.formattedMessage 0 len fun message_format => do
      wrapIf (len < HEADER_LEN)
      let messagesLen := toSizeT ((len : Int) - HEADER_LEN)
      formatMessage q message_format HEADER_LEN messagesLen
      return true

def specialMessage (d : Decoders) (len : Nat) (dir : UInt8) : Reading Bool :=
  if dir = DIR_Client then return false else whole d.specialMessage len

-----------------------------------------------------------------------------------------
-- Groups and buffs
-----------------------------------------------------------------------------------------

def groupUpdate (_len : Nat) : Reading Bool := return false

def groupMemberList (d : Decoders) (len : Nat) : Reading Bool := whole d.groupMemberList len

def removeGroupMember (d : Decoders) : Reading Bool :=
  whenDecoded d.groupDisband 0 sizeofGroupDisbandStruct fun _ => return true

def buff (d : Decoders) (len : Nat) (dir : UInt8) : Reading Bool :=
  if dir = DIR_Client then return false else whole d.buff len

-----------------------------------------------------------------------------------------
-- The rows
-----------------------------------------------------------------------------------------

/-- The rows under `SZC_None`, by their opcodes; two of them share one. -/
inductive UnsizedRow
  | playerProfile
  | newZone
  | sendZonePoints
  | dzSwitchInfo
  | guildMOTD
  | guildMemberList
  | expandedGuildInfo
  | guildsInZoneList
  | newGuildInZone
  | itemPacket
  | groundSpawn
  | zoneEntry
  | wearChangeOfShell
  | wearChangeOfPlayer
  | shroud
  | removeSpawn
  | npcMoveUpdate
  | commonMessage
  | formattedMessage
  | specialMesg
  | groupUpdate
  | groupMemberList
  | groupDisband
  | groupDisband2
  | buff
  deriving DecidableEq

/-- What `wireBoxPipeline` registers for a row. -/
def UnsizedRow.handler (d : Decoders) (q : Managers) : UnsizedRow → PacketHandler
  | .playerProfile => seqBind2 (zonePlayer d)
  | .newZone => seqBind3 (zoneNew d)
  | .sendZonePoints => seqBind3 (zonePoints d)
  | .dzSwitchInfo => seqBind3 (dynamicZonePoints d)
  | .guildMOTD => seqBind2 (WireLive.guildMOTD d)
  | .guildMemberList => seqBind2 (guildRoster d)
  | .expandedGuildInfo => seqBind2 (WireLive.expandedGuildInfo d)
  | .guildsInZoneList => seqBind2 (guildsInZone d)
  | .newGuildInZone => seqBind2 (WireLive.newGuildInZone d)
  | .itemPacket => seqBind3 onItemPacket
  | .groundSpawn => seqBind3 (newGroundItem d q)
  | .zoneEntry => seqBind2 (WireLive.zoneEntry d)
  | .wearChangeOfShell => seqBind1 (SpawnShell.updateSpawnInfo d)
  | .wearChangeOfPlayer => seqBind1 (Player.updateSpawnInfo d)
  | .shroud => seqBind3 (shroudSpawn d q)
  | .removeSpawn => seqBind3 (WireLive.removeSpawn d)
  | .npcMoveUpdate => seqBind3 (WireLive.npcMoveUpdate d q)
  | .commonMessage => seqBind3 (channelMessage d)
  | .formattedMessage => seqBind3 (WireLive.formattedMessage d q)
  | .specialMesg => seqBind3 (specialMessage d)
  | .groupUpdate => seqBind2 WireLive.groupUpdate
  | .groupMemberList => seqBind2 (WireLive.groupMemberList d)
  | .groupDisband => seqBind1 (removeGroupMember d)
  | .groupDisband2 => seqBind1 (removeGroupMember d)
  | .buff => seqBind3 (WireLive.buff d)

/-- A message is dispatched to a row: the handler is called with its length and its direction. -/
def UnsizedRow.dispatch (row : UnsizedRow) (d : Decoders) (q : Managers) (dir : UInt8) (m : Buffer)
    : Reading Bool :=
  row.handler d q m.length dir

end WireLive

end Scry
