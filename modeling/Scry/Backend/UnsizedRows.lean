import Scry.Backend.UnsizedReads
import Scry.Backend.WireTable

/-! Which messages each row without a size check handles inside their bounds. -/

namespace Scry

namespace WireLive

open Reading

/-- The handler that the live backend's row names. -/
def UnsizedRow.registered : UnsizedRow → BoxHandler LiveHandler
  | .playerProfile => .manager .ZoneMgr_zonePlayer
  | .newZone => .manager .ZoneMgr_zoneNew
  | .sendZonePoints => .manager .ZoneMgr_zonePoints
  | .dzSwitchInfo => .manager .ZoneMgr_dynamicZonePoints
  | .guildMOTD => .manager .GuildShell_guildMOTD
  | .guildMemberList => .manager .GuildShell_guildRoster
  | .expandedGuildInfo => .manager .GuildShell_expandedGuildInfo
  | .guildsInZoneList => .manager .GuildMgr_guildsInZone
  | .newGuildInZone => .manager .GuildMgr_newGuildInZone
  | .itemPacket => .sink .onItemPacket
  | .groundSpawn => .manager .SpawnShell_newGroundItem
  | .zoneEntry => .manager .SpawnShell_zoneEntry
  | .wearChangeOfShell => .manager .SpawnShell_updateSpawnInfo
  | .wearChangeOfPlayer => .manager .Player_updateSpawnInfo
  | .shroud => .manager .SpawnShell_shroudSpawn
  | .removeSpawn => .manager .SpawnShell_removeSpawn
  | .npcMoveUpdate => .manager .SpawnShell_npcMoveUpdate
  | .commonMessage => .manager .MessageShell_channelMessage
  | .formattedMessage => .manager .MessageShell_formattedMessage
  | .specialMesg => .manager .MessageShell_specialMessage
  | .groupUpdate => .manager .GroupMgr_groupUpdate
  | .groupMemberList => .manager .GroupMgr_groupMemberList
  | .groupDisband => .manager .GroupMgr_removeGroupMember
  | .groupDisband2 => .manager .GroupMgr_removeGroupMember
  | .buff => .manager .SpellShell_buff

/-- The live backend's rows under `SZC_None` are the ones above, and no others. -/
theorem registered_unsized
    : ((BoxPipeline.live.rows true).filter (·.szt = .none)).map WireRow.handler
      = [UnsizedRow.playerProfile, .newZone, .sendZonePoints, .dzSwitchInfo, .guildMOTD,
          .guildMemberList, .expandedGuildInfo, .guildsInZoneList, .newGuildInZone, .itemPacket,
          .groundSpawn, .zoneEntry, .wearChangeOfShell, .wearChangeOfPlayer, .shroud,
          .removeSpawn, .npcMoveUpdate, .commonMessage, .formattedMessage, .specialMesg,
          .groupUpdate, .groupMemberList, .groupDisband, .groupDisband2, .buff].map
          UnsizedRow.registered := by
  rfl

/-- The message has room for what the row's handler takes without asking. -/
def UnsizedRow.Fits (d : Decoders) (q : Managers) (dir : UInt8) (m : Buffer) : UnsizedRow → Prop
  | .playerProfile => d.playerProfile.least ≤ m.length
  | .wearChangeOfShell | .wearChangeOfPlayer => sizeofSpawnUpdateStruct ≤ m.length
  | .groupDisband | .groupDisband2 => sizeofGroupDisbandStruct ≤ m.length
  | .shroud => ShroudFits d q m
  | .formattedMessage =>
      dir ≠ DIR_Client →
        ∀ format, d.formattedMessage.decode (m.slice 0 m.length) = some format →
          HEADER_LEN ≤ m.length ∧ MessageFits q format m
  | _ => True

/-- A row's handler reads and passes on the message's own bytes, computes no length that wraps,
and ignores what is too short to be decoded, exactly for the messages that fit the row.
-/
theorem unsized_careful_iff (row : UnsizedRow) (d : Decoders) (q : Managers) (dir : UInt8)
    (m : UnsizedMessage)
    : (row.dispatch d q dir m.toBuffer).Careful m.toBuffer ↔ row.Fits d q dir m.toBuffer := by
  have short : m.length ≤ 0x7fffffff := m.length_le.trans (by decide)
  cases row with
  | playerProfile => exact careful_zonePlayer d
  | newZone => exact iff_of_true (careful_whole _) trivial
  | sendZonePoints => exact iff_of_true (careful_zonePoints d dir) trivial
  | dzSwitchInfo => exact iff_of_true (careful_dynamicZonePoints d dir) trivial
  | guildMOTD => exact iff_of_true (careful_whole _) trivial
  | guildMemberList => exact iff_of_true (careful_whole _) trivial
  | expandedGuildInfo => exact iff_of_true (careful_whole _) trivial
  | guildsInZoneList => exact iff_of_true (careful_whole _) trivial
  | newGuildInZone => exact iff_of_true (careful_whole _) trivial
  | itemPacket => exact iff_of_true (careful_readItemPacket short) trivial
  | groundSpawn => exact iff_of_true (careful_newGroundItem d q dir) trivial
  | zoneEntry => exact iff_of_true (careful_whole _) trivial
  | wearChangeOfShell => exact careful_fixed d.wearChange _
  | wearChangeOfPlayer => exact careful_fixed d.wearChange _
  | shroud => exact careful_shroudSpawn d q dir short
  | removeSpawn => exact iff_of_true (careful_removeSpawn d dir) trivial
  | npcMoveUpdate => exact iff_of_true (careful_npcMoveUpdate d q dir) trivial
  | commonMessage => exact iff_of_true (careful_channelMessage d dir) trivial
  | formattedMessage => exact careful_formattedMessage d q dir short
  | specialMesg => exact iff_of_true (careful_specialMessage d dir) trivial
  | groupUpdate => exact iff_of_true (careful_pure _ _) trivial
  | groupMemberList => exact iff_of_true (careful_whole _) trivial
  | groupDisband => exact careful_fixed d.groupDisband _
  | groupDisband2 => exact careful_fixed d.groupDisband _
  | buff => exact iff_of_true (careful_buff d dir) trivial

/-- Decoders that go by the length alone: those of fixed structures by theirs. -/
def Decoders.bySize : Decoders where
  playerProfile := .sized 5022 ()
  newZone := .sized 1 ()
  zonePoint := .sized sizeofZonePointStruct ()
  zonePoint_least := le_refl _
  dzSwitchInfo := .sized sizeofDzSwitchInfo ()
  guildMotd := .sized 1 ()
  guildRoster := .sized 1 ()
  guildExpandedInfo := .sized 1 ()
  guildsInZoneList := .sized 1 ()
  newGuildInZone := .sized 1 ()
  groundSpawn := .sized 1 ()
  spawn := .sized 1 ()
  wearChange := .sized sizeofSpawnUpdateStruct ()
  removeSpawn := .sized sizeofRemoveSpawnStruct ()
  npcMoveUpdate := .sized 13 ()
  channelMessage := .sized 1 0
  formattedMessage := .sized HEADER_LEN 0
  specialMessage := .sized 1 ()
  groupMemberList := .sized 1 ()
  groupDisband := .sized sizeofGroupDisbandStruct ()
  buff := .sized 13 ()

/-- An `OP_GroupDisband` of eight bytes is read for as long as its structure is. -/
theorem disband_overread
    : ¬ ∀ (row : UnsizedRow) (d : Decoders) (q : Managers) (dir : UInt8) (m : UnsizedMessage),
        (row.dispatch d q dir m.toBuffer).Careful m.toBuffer := by
  intro careful
  let message : UnsizedMessage := ⟨⟨List.replicate 8 0, fun _ => 0⟩, by decide⟩
  have inside
      : sizeofGroupDisbandStruct ≤ message.length :=
    (careful_fixed Decoders.bySize.groupDisband _).mp
      (careful .groupDisband .bySize ⟨false, 0, fun _ => false⟩ DIR_Server message)
  revert inside
  decide

end WireLive

end Scry
