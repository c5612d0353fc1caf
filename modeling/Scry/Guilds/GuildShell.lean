import Mathlib.Data.List.Basic
import Mathlib.Data.String.Basic
import Scry.Library.OrderedMap

/-! The guild shell of one character: the roster, the message of the day and the rank names, each
replaced by a packet of its own.
-/

namespace Scry

/-- A roster row that a backend has decoded. -/
structure GuildRosterEntry where
  name : String
  level : UInt8
  classVal : UInt8
  classMask : UInt32
  guildRank : UInt32
  lastOn : UInt32
  banker : UInt8
  alt : UInt8
  fullMember : UInt32
  publicNote : String
  zoneId : UInt16
  deriving DecidableEq

structure GuildMember where
  name : String
  banker : UInt8
  level : UInt8
  classVal : UInt8
  classMask : UInt32
  guildRank : UInt32
  lastOn : UInt32
  alt : UInt32
  fullmember : UInt32
  publicNote : String
  zoneId : UInt16
  zoneInstance : UInt16
  deriving DecidableEq

/-- The constructor. No backend sends the instance of a zone with the roster. -/
def GuildMember.ofEntry (e : GuildRosterEntry) : GuildMember :=
  { name := e.name
    banker := e.banker
    level := e.level
    classVal := e.classVal
    classMask := e.classMask
    guildRank := e.guildRank
    lastOn := e.lastOn
    alt := e.alt.toUInt32
    fullmember := e.fullMember
    publicNote := e.publicNote
    zoneId := e.zoneId
    zoneInstance := 0 }

def GuildMember.setZone (m : GuildMember) (zoneId zoneInstance : UInt16) (lastOn : UInt32)
    : GuildMember :=
  { m with zoneId, zoneInstance, lastOn }

/-- `OP_GuildMemberUpdate`, decoded. -/
structure GuildMemberZone where
  name : String
  zoneId : UInt16
  zoneInstance : UInt16
  lastOn : UInt32

inductive GuildShellSignal
  | cleared
  | loaded
  | added (gm : GuildMember)
  | updated (gm : GuildMember)
  | motdChanged
  | rankNamesChanged

structure GuildShell where
  members : OrderedMap String GuildMember
  guildId : UInt32
  motd : String
  motdSender : String
  motdSet : Bool
  rankNames : OrderedMap UInt32 String
  deriving DecidableEq

namespace GuildShell

/-- The constructor. -/
def fresh : GuildShell :=
  { members := .empty
    guildId := 0
    motd := ""
    motdSender := ""
    motdSet := false
    rankNames := .empty }

/-- The rows that become members: one without a name is passed over. -/
def named (rows : List GuildRosterEntry) : List GuildRosterEntry :=
  rows.filter fun e => e.name != ""

/-- A row put under its name, in the place of one that had the name before. -/
def insertMember (members : OrderedMap String GuildMember) (e : GuildRosterEntry)
    : OrderedMap String GuildMember :=
  members.insert e.name (.ofEntry e)

/-- The roster is replaced as a whole. The rank names go with the guild they are of, and the
message of the day stays.
-/
def setRoster (sh : GuildShell) (guildId : UInt32) (rows : List GuildRosterEntry)
    : GuildShell × List GuildShellSignal :=
  ({ sh with
      members := (named rows).foldl insertMember .empty
      rankNames := if guildId ≠ sh.guildId then .empty else sh.rankNames
      guildId },
    .cleared :: (named rows).map (fun e => .added (.ofEntry e)) ++ [.loaded])

/-- `memberZoneUpdate`, of what its decoder made of the packet. -/
def memberZoneUpdate (sh : GuildShell) (u : Option GuildMemberZone)
    : GuildShell × List GuildShellSignal :=
  match u with
  | none => (sh, [])
  | some u =>
      match sh.members.find? u.name with
      | none => (sh, [])
      | some m =>
          let m := m.setZone u.zoneId u.zoneInstance u.lastOn
          ({ sh with members := sh.members.insert u.name m }, [.updated m])

/-- `expandedGuildInfo`, of the rank and its name. The rank is 0 for every other action. -/
def expandedGuildInfo (sh : GuildShell) (rankIndex : UInt32) (rankName : String)
    : GuildShell × List GuildShellSignal :=
  if rankIndex = 0 ∨ rankName = "" then (sh, [])
  else if sh.rankNames.find? rankIndex = some rankName then (sh, [])
  else ({ sh with rankNames := sh.rankNames.insert rankIndex rankName }, [.rankNamesChanged])

def setMotd (sh : GuildShell) (message sender : String) : GuildShell × List GuildShellSignal :=
  ({ sh with motd := message, motdSender := sender, motdSet := true }, [.motdChanged])

/-- The last row that has a name. -/
def lastRow (rows : List GuildRosterEntry) (name : String) : Option GuildRosterEntry :=
  rows.reverse.find? fun e => e.name == name

/-- Rows put in one after another leave the last one of each name, by induction on the rows. -/
theorem find?_foldl_insertMember (rows : List GuildRosterEntry)
    (members : OrderedMap String GuildMember) (name : String)
    : (rows.foldl insertMember members).find? name
      = ((lastRow rows name).map GuildMember.ofEntry <|> members.find? name) := by
  induction rows generalizing members with
  | nil => rfl
  | cons e rest ih =>
      rw [List.foldl_cons, ih, insertMember, OrderedMap.find?_insert, lastRow, lastRow,
        List.reverse_cons, List.find?_append]
      cases List.find? (fun e => e.name == name) rest.reverse with
      | some later => rfl
      | none =>
          by_cases same : e.name = name
          · simp [same]
          · simp [same, Ne.symm same]

/-- After a roster, the members are the last row of each name that is not empty. -/
theorem find?_setRoster (sh : GuildShell) (guildId : UInt32) (rows : List GuildRosterEntry)
    (name : String)
    : (sh.setRoster guildId rows).1.members.find? name
      = (lastRow (named rows) name).map GuildMember.ofEntry := by
  rw [setRoster, find?_foldl_insertMember]
  cases lastRow (named rows) name <;> rfl

@[simp]
theorem expandedGuildInfo_guildId (sh : GuildShell) (rankIndex : UInt32) (rankName : String)
    : (sh.expandedGuildInfo rankIndex rankName).1.guildId = sh.guildId := by
  rw [expandedGuildInfo]
  split
  · rfl
  · split <;> rfl

/-- A rank is named by its own entry, or was before. -/
theorem mem_rankNames_expandedGuildInfo {sh : GuildShell} {rankIndex rank : UInt32}
    {rankName : String}
    (listed : rank ∈ (sh.expandedGuildInfo rankIndex rankName).1.rankNames.keys)
    : rank = rankIndex ∨ rank ∈ sh.rankNames.keys := by
  rw [expandedGuildInfo] at listed
  split at listed
  · exact Or.inr listed
  · split at listed
    · exact Or.inr listed
    · exact OrderedMap.mem_keys_insert.mp listed

end GuildShell
end Scry
