import Scry.Library.Directory
import Scry.Library.OrderedMap
import Scry.Library.TextStream
import Scry.Library.Utf8

/-! The guild manager: the names of guilds as packets tell them, and the file that keeps them. -/

namespace Scry

open TextStream Utf8

/-- A row of a packet, as the backend decodes it. -/
structure GuildInZoneRow where
  guildId : UInt32
  serverId : UInt32
  name : List UInt8
  deriving DecidableEq

structure GuildInZoneEntry where
  guildId : UInt32
  serverId : UInt32
  name : List Char
  deriving DecidableEq

def GuildInZoneEntry.key (e : GuildInZoneEntry) : UInt32 := e.serverId <<< 16 ||| e.guildId

def GuildInZoneRow.entry (r : GuildInZoneRow) : GuildInZoneEntry :=
  { guildId := r.guildId, serverId := r.serverId, name := fromLatin1 r.name }

structure GuildMgr where
  guildList : OrderedMap UInt32 (List Char)
  deriving DecidableEq

/-- The directory of the guilds file when it is written, and how the steps of writing come out. -/
structure GuildSaving where
  directory : Directory SaveName (List Char)
  sees : Bool
  removes : Bool
  opens : Bool
  stores : List Char → List Char

namespace GuildMgr

/-- A manager that has no file. -/
def fresh : GuildMgr := ⟨.empty⟩

/-- `guildIdToName`: no guild has the id 0, and none is on server 0. -/
def guildIdToName (m : GuildMgr) (guildID guildServerID : UInt16) : String :=
  let key := guildServerID.toUInt32 <<< 16 ||| guildID.toUInt32
  if guildID = 0 ∨ guildServerID = 0 then "" else String.ofList ((m.guildList.find? key).getD [])

/-- One round of the loop of `learnGuilds`. -/
def learnGuild (m : GuildMgr) (e : GuildInZoneEntry) : GuildMgr :=
  if e.name ≠ [] ∧ m.guildList.find? e.key = none then ⟨m.guildList.insert e.key e.name⟩ else m

def learnGuilds (m : GuildMgr) (rows : List GuildInZoneEntry) : GuildMgr :=
  rows.foldl learnGuild m

/-- `feedRows`: the rows of a packet. -/
def feedRows (m : GuildMgr) (rows : List GuildInZoneRow) : GuildMgr :=
  m.learnGuilds (rows.map GuildInZoneRow.entry)

/-- A line of the guilds file: text and bytes make text by UTF-8. -/
def guildLine (entry : UInt32 × List Char) : List Char :=
  trimmed (decimal entry.1.toNat ++ '|' :: fromUtf8 (toLatin1 entry.2)) ++ ['\n']

/-- What `writeGuildList` writes. -/
def guildFile (m : GuildMgr) : List Char :=
  (m.guildList.entries.filter fun entry => entry.1 ≠ 0).flatMap guildLine

/-- `writeGuildList`: a file that cannot be opened is not the end of it. -/
def writeGuildList (m : GuildMgr) (s : GuildSaving) : Directory SaveName (List Char) :=
  let exists_ := s.directory.seen .canonical s.sees
  let removed := s.directory.remove .canonical s.removes
  if exists_ ∧ ¬ removed.1 then s.directory
  else
    let d := if exists_ then removed.2 else s.directory
    if s.opens then d.put .canonical (some (s.stores m.guildFile)) else d

/-- The files of the guilds after they are written. -/
theorem writeGuildList_eq (m : GuildMgr) (s : GuildSaving)
    : (m.writeGuildList s) .backup = s.directory .backup
      ∧ (m.writeGuildList s) .canonical
        = if s.directory.seen .canonical s.sees ∧ ¬ s.removes then s.directory .canonical
          else if s.opens then some (s.stores m.guildFile)
          else if s.directory.seen .canonical s.sees then none
          else s.directory .canonical := by
  by_cases sees : s.directory.seen .canonical s.sees = true
  · have there : (s.directory .canonical).isSome = true := by
      simp only [Directory.seen, Bool.and_eq_true] at sees
      exact sees.1
    cases removes : s.removes with
    | false =>
        simp only [writeGuildList, Directory.remove, sees, removes]
        simp [Directory.seen]
    | true =>
        have removed : s.directory.seen .canonical true = true := by
          simp [Directory.seen, there]
        cases opens : s.opens with
        | false =>
            simp [writeGuildList, Directory.remove, sees, removes, removed, opens]
        | true =>
            simp [writeGuildList, Directory.remove, sees, removes, removed, opens]
  · cases opens : s.opens with
    | false => simp [writeGuildList, sees, opens]
    | true => simp [writeGuildList, sees, opens]

/-- Text of bytes: the mark of the byte order is no character. -/
def fromBytes (text : List Char) : List Char :=
  if text.head? = some '\ufeff' then text.tail else text

/-- One round of the loop of `readGuildList`. The lines, the fields and the blanks of ASCII are
the same of the bytes of the file and of its text.
-/
def readGuild (m : GuildMgr) (line : List Char) : GuildMgr :=
  match line.splitOn '|' with
  | [key, guildName] =>
      ⟨m.guildList.insert (toULong key).toUInt32 (fromBytes (asciiTrimmed guildName))⟩
  | _ => m

/-- `readGuildList`, of the file if there is one. -/
def readGuildList (file : Option (List Char)) : GuildMgr :=
  match file with
  | some text => (lines text).foldl readGuild fresh
  | none => fresh

/-- What a manager knows after packets of guilds. -/
def learned (packets : List (List GuildInZoneRow)) : GuildMgr := packets.foldl feedRows fresh

end GuildMgr

end Scry
