import Scry.Backend.BoxPipeline

/-! The rows of the backends' wirings. -/

namespace Scry

/-- The members of a box's managers that the live backend wires, by class and name. -/
inductive LiveHandler
  | ZoneMgr_zoneEntryClient
  | ZoneMgr_zonePlayer
  | ZoneMgr_zoneChange
  | ZoneMgr_zoneNew
  | ZoneMgr_zonePoints
  | ZoneMgr_dynamicZonePoints
  | ZoneMgr_dynamicZoneInfo
  | GuildShell_guildMOTD
  | GuildShell_guildRoster
  | GuildShell_memberZoneUpdate
  | GuildShell_expandedGuildInfo
  | GuildMgr_guildsInZone
  | GuildMgr_newGuildInZone
  | Player_playerUpdateSelf
  | SpawnShell_newGroundItem
  | SpawnShell_removeGroundItem
  | SpawnShell_newDoorSpawns
  | SpawnShell_zoneEntry
  | SpawnShell_updateSpawns
  | SpawnShell_updateSpawnInfo
  | SpawnShell_updateSpawnLock
  | SpawnShell_updateNpcHP
  | SpawnShell_updateMobHealth
  | Player_updateNpcHP
  | Player_manaChange
  | Player_updateStamina
  | Player_updateEndurance
  | Player_updateExp
  | Player_updateAltExp
  | Player_updateLevel
  | Player_increaseSkill
  | Player_updateSpawnInfo
  | SpawnShell_deleteSpawn
  | SpawnShell_renameSpawn
  | SpawnShell_illusionSpawn
  | SpawnShell_updateSpawnAppearance
  | SpawnShell_killSpawn
  | SpawnShell_shroudSpawn
  | SpawnShell_removeSpawn
  | SpawnShell_consMessage
  | SpawnShell_clientTarget
  | SpawnShell_npcMoveUpdate
  | SpawnShell_playerUpdate
  | SpawnShell_corpseLoc
  | MessageShell_channelMessage
  | MessageShell_formattedMessage
  | MessageShell_simpleMessage
  | MessageShell_specialMessage
  | MessageShell_inspectData
  | GroupMgr_groupUpdate
  | GroupMgr_groupMemberList
  | GroupMgr_removeGroupMember
  | SpellShell_buff
  | SpellShell_action
  | SpellShell_simpleMessage
  | CombatRouter_action2
  deriving DecidableEq

namespace BoxPipeline

/-- The rows of the live backend, in the order of `wireBoxPipeline`. -/
def live : BoxPipeline LiveHandler where
  before := [
    ⟨"OP_ZoneEntry", .SP_Zone, DIR_Client, "ClientZoneEntryStruct", .match,
      .ZoneMgr_zoneEntryClient⟩,
    ⟨"OP_PlayerProfile", .SP_Zone, DIR_Server, "uint8_t", .none, .ZoneMgr_zonePlayer⟩,
    ⟨"OP_ZoneChange", .SP_Zone, DIR_Client ||| DIR_Server, "zoneChangeStruct", .match,
      .ZoneMgr_zoneChange⟩,
    ⟨"OP_NewZone", .SP_Zone, DIR_Server, "uint8_t", .none, .ZoneMgr_zoneNew⟩,
    ⟨"OP_SendZonePoints", .SP_Zone, DIR_Server, "zonePointsStruct", .none, .ZoneMgr_zonePoints⟩,
    ⟨"OP_DzSwitchInfo", .SP_Zone, DIR_Server, "dzSwitchInfo", .none, .ZoneMgr_dynamicZonePoints⟩,
    ⟨"OP_DzInfo", .SP_Zone, DIR_Server, "dzInfo", .match, .ZoneMgr_dynamicZoneInfo⟩,
    ⟨"OP_GuildMOTD", .SP_Zone, DIR_Server, "guildMOTDStruct", .none, .GuildShell_guildMOTD⟩,
    ⟨"OP_GuildMemberList", .SP_Zone, DIR_Server, "uint8_t", .none, .GuildShell_guildRoster⟩,
    ⟨"OP_GuildMemberUpdate", .SP_Zone, DIR_Server, "GuildMemberUpdate", .match,
      .GuildShell_memberZoneUpdate⟩,
    ⟨"OP_ExpandedGuildInfo", .SP_Zone, DIR_Server, "uint8_t", .none,
      .GuildShell_expandedGuildInfo⟩,
    ⟨"OP_GuildsInZoneList", .SP_Zone, DIR_Server, "uint8_t", .none, .GuildMgr_guildsInZone⟩,
    ⟨"OP_NewGuildInZone", .SP_Zone, DIR_Server, "uint8_t", .none, .GuildMgr_newGuildInZone⟩,
    ⟨"OP_ClientUpdate", .SP_Zone, DIR_Server ||| DIR_Client, "playerSelfPosStruct", .match,
      .Player_playerUpdateSelf⟩]
  sinks := [
    ⟨"OP_ItemPacket", .SP_Zone, DIR_Server, "itemPacketStruct", .none, .onItemPacket⟩,
    ⟨"OP_TimeOfDay", .SP_Zone, DIR_Server, "timeOfDayStruct", .match, .timeOfDay⟩,
    ⟨"OP_ZoneServerInfo", .SP_World, DIR_Server, "zoneServerInfoStruct", .match, .zoneServerInfo⟩]
  after := [
    ⟨"OP_GroundSpawn", .SP_Zone, DIR_Server, "makeDropStruct", .none, .SpawnShell_newGroundItem⟩,
    ⟨"OP_ClickObject", .SP_Zone, DIR_Server, "remDropStruct", .match,
      .SpawnShell_removeGroundItem⟩,
    ⟨"OP_SpawnDoor", .SP_Zone, DIR_Server, "doorStruct", .modulus, .SpawnShell_newDoorSpawns⟩,
    ⟨"OP_ZoneEntry", .SP_Zone, DIR_Server, "uint8_t", .none, .SpawnShell_zoneEntry⟩,
    ⟨"OP_MobUpdate", .SP_Zone, DIR_Server ||| DIR_Client, "spawnPositionUpdate", .match,
      .SpawnShell_updateSpawns⟩,
    ⟨"OP_WearChange", .SP_Zone, DIR_Server, "wearChangeStruct", .none,
      .SpawnShell_updateSpawnInfo⟩,
    ⟨"OP_SpawnAppearance2", .SP_Zone, DIR_Server, "spawnAppearance2Struct", .match,
      .SpawnShell_updateSpawnLock⟩,
    ⟨"OP_HPUpdate", .SP_Zone, DIR_Server ||| DIR_Client, "hpNpcUpdateStruct", .match,
      .SpawnShell_updateNpcHP⟩,
    ⟨"OP_MobHealth", .SP_Zone, DIR_Server, "mobHealthStruct", .match,
      .SpawnShell_updateMobHealth⟩,
    ⟨"OP_HPUpdate", .SP_Zone, DIR_Server ||| DIR_Client, "hpNpcUpdateStruct", .match,
      .Player_updateNpcHP⟩,
    ⟨"OP_ManaChange", .SP_Zone, DIR_Server, "manaDecrementStruct", .match, .Player_manaChange⟩,
    ⟨"OP_Stamina", .SP_Zone, DIR_Server, "staminaStruct", .match, .Player_updateStamina⟩,
    ⟨"OP_EndUpdate", .SP_Zone, DIR_Server, "endUpdateStruct", .match, .Player_updateEndurance⟩,
    ⟨"OP_ExpUpdate", .SP_Zone, DIR_Server, "expUpdateStruct", .match, .Player_updateExp⟩,
    ⟨"OP_AAExpUpdate", .SP_Zone, DIR_Server, "altExpUpdateStruct", .match, .Player_updateAltExp⟩,
    ⟨"OP_LevelUpdate", .SP_Zone, DIR_Server, "levelUpUpdateStruct", .match, .Player_updateLevel⟩,
    ⟨"OP_SkillUpdate", .SP_Zone, DIR_Server, "skillIncStruct", .match, .Player_increaseSkill⟩,
    ⟨"OP_WearChange", .SP_Zone, DIR_Server, "wearChangeStruct", .none, .Player_updateSpawnInfo⟩,
    ⟨"OP_DeleteSpawn", .SP_Zone, DIR_Server ||| DIR_Client, "deleteSpawnStruct", .match,
      .SpawnShell_deleteSpawn⟩,
    ⟨"OP_SpawnRename", .SP_Zone, DIR_Server, "spawnRenameStruct", .match,
      .SpawnShell_renameSpawn⟩,
    ⟨"OP_Illusion", .SP_Zone, DIR_Server ||| DIR_Client, "spawnIllusionStruct", .match,
      .SpawnShell_illusionSpawn⟩,
    ⟨"OP_SpawnAppearance", .SP_Zone, DIR_Server ||| DIR_Client, "spawnAppearanceStruct", .match,
      .SpawnShell_updateSpawnAppearance⟩,
    ⟨"OP_Death", .SP_Zone, DIR_Server, "newCorpseStruct", .match, .SpawnShell_killSpawn⟩,
    ⟨"OP_Shroud", .SP_Zone, DIR_Server, "spawnShroudSelf", .none, .SpawnShell_shroudSpawn⟩,
    ⟨"OP_RemoveSpawn", .SP_Zone, DIR_Server ||| DIR_Client, "removeSpawnStruct", .none,
      .SpawnShell_removeSpawn⟩,
    ⟨"OP_Consider", .SP_Zone, DIR_Server ||| DIR_Client, "considerStruct", .match,
      .SpawnShell_consMessage⟩,
    ⟨"OP_TargetMouse", .SP_Zone, DIR_Server ||| DIR_Client, "clientTargetStruct", .match,
      .SpawnShell_clientTarget⟩,
    ⟨"OP_NpcMoveUpdate", .SP_Zone, DIR_Server, "uint8_t", .none, .SpawnShell_npcMoveUpdate⟩,
    ⟨"OP_ClientUpdate", .SP_Zone, DIR_Server, "playerSpawnPosStruct", .match,
      .SpawnShell_playerUpdate⟩,
    ⟨"OP_CorpseLocResponse", .SP_Zone, DIR_Server, "corpseLocStruct", .match,
      .SpawnShell_corpseLoc⟩,
    ⟨"OP_CommonMessage", .SP_Zone, DIR_Client ||| DIR_Server, "channelMessageStruct", .none,
      .MessageShell_channelMessage⟩,
    ⟨"OP_FormattedMessage", .SP_Zone, DIR_Server, "formattedMessageStruct", .none,
      .MessageShell_formattedMessage⟩,
    ⟨"OP_SimpleMessage", .SP_Zone, DIR_Server, "simpleMessageStruct", .match,
      .MessageShell_simpleMessage⟩,
    ⟨"OP_SpecialMesg", .SP_Zone, DIR_Server, "specialMessageStruct", .none,
      .MessageShell_specialMessage⟩,
    ⟨"OP_InspectAnswer", .SP_Zone, DIR_Server, "inspectDataStruct", .match,
      .MessageShell_inspectData⟩,
    ⟨"OP_GroupUpdate", .SP_Zone, DIR_Server, "uint8_t", .none, .GroupMgr_groupUpdate⟩,
    ⟨"OP_GroupMemberList", .SP_Zone, DIR_Server, "uint8_t", .none, .GroupMgr_groupMemberList⟩,
    ⟨"OP_GroupDisband", .SP_Zone, DIR_Server, "groupDisbandStruct", .none,
      .GroupMgr_removeGroupMember⟩,
    ⟨"OP_GroupDisband2", .SP_Zone, DIR_Server, "groupDisbandStruct", .none,
      .GroupMgr_removeGroupMember⟩,
    ⟨"OP_Buff", .SP_Zone, DIR_Server, "uint8_t", .none, .SpellShell_buff⟩,
    ⟨"OP_Action", .SP_Zone, DIR_Server ||| DIR_Client, "actionStruct", .match,
      .SpellShell_action⟩,
    ⟨"OP_Action", .SP_Zone, DIR_Server ||| DIR_Client, "actionAltStruct", .match,
      .SpellShell_action⟩,
    ⟨"OP_SimpleMessage", .SP_Zone, DIR_Server, "simpleMessageStruct", .match,
      .SpellShell_simpleMessage⟩,
    ⟨"OP_Action2", .SP_Zone, DIR_Client ||| DIR_Server, "action2Struct", .match,
      .CombatRouter_action2⟩]
  sinks_nodup := by decide

/-- The rows of the eql backend, which has no row for items; those of its managers are left
open.
-/
def eql {P : Type} (before after : List (WireRow P)) : BoxPipeline P where
  before
  sinks := [
    ⟨"OP_TimeOfDay", .SP_Zone, DIR_Server, "timeOfDayStruct", .match, .timeOfDay⟩,
    ⟨"OP_ZoneServerInfo", .SP_World, DIR_Server, "zoneServerInfoStruct", .match, .zoneServerInfo⟩]
  after
  sinks_nodup := by decide

end BoxPipeline

end Scry
