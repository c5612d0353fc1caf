import Scry.Guilds.GuildMgr
import Scry.Spawns.PlayerId

/-! The guild tags of the spawns, which are looked up when a spawn comes in and when a guild is
learned, and what a client was last sent of them.
-/

namespace Scry

/-- The guild manager, and the zone whose spawns it names with the session that follows it. -/
structure GuildZone where
  guilds : GuildMgr
  zone : ZoneSession

/-- What bears on the tags. A call of `learnGuilds` is one `learnGuild` for each row in turn. -/
inductive GuildOp
  | learnGuild (e : GuildInZoneEntry)
  | newSpawn (d : SpawnStruct)
  | newSpawnPacket (d : SpawnStruct)
  | zoneEntry (d : SpawnStruct)
  | upsertSpawn (id : UInt16) (r : SpawnRecord)
  | respawnFromHover

/-- The rows of a call. -/
def GuildOp.learnGuilds (rows : List GuildInZoneEntry) : List GuildOp := rows.map .learnGuild

namespace GuildZone

/-- A client that subscribed before the first spawn, under guilds known from the file. -/
def fresh (guilds : GuildMgr) (player : Player) (filterMgr : FilterMgr)
    (createUnknownSpawns : Bool)
    : GuildZone :=
  { guilds
    zone :=
      (ZoneSession.fresh
        (.fresh player filterMgr guilds.guildIdToName createUnknownSpawns)).subscribe }

/-- An operation of the shell, and what the session makes of its signals. -/
def perform (w : GuildZone) (result : SpawnShell × List SpawnSignal) : GuildZone :=
  { w with zone := w.zone.perform result }

/-- The shell with the names that the guild manager would answer with now. -/
def renamed (w : GuildZone) (guilds : GuildMgr) : SpawnShell :=
  { w.zone.shell with guildIdToName := guilds.guildIdToName }

/-- One round of the loop of `learnGuilds`, with the slot of the shell that `guildTagUpdated`
runs.
-/
def learnGuild (w : GuildZone) (e : GuildInZoneEntry) : GuildZone :=
  if e.name ≠ [] ∧ w.guilds.guildList.find? e.key = none then
    let guilds := w.guilds.learnGuild e
    { guilds, zone := w.zone.perform ((w.renamed guilds).updateGuildTag e.guildId) }
  else w

def step : GuildOp → GuildZone → GuildZone
  | .learnGuild e, w => w.learnGuild e
  | .newSpawn d, w => w.perform (w.zone.shell.newSpawn d)
  | .newSpawnPacket d, w => w.perform (w.zone.shell.newSpawnPacket d)
  | .zoneEntry d, w => w.perform (w.zone.shell.zoneEntry d)
  | .upsertSpawn id r, w => w.perform (w.zone.shell.upsertSpawn id r)
  | .respawnFromHover, w => w.perform w.zone.shell.respawnFromHover

theorem learnGuild_guilds (w : GuildZone) (e : GuildInZoneEntry)
    : (w.learnGuild e).guilds = w.guilds.learnGuild e := by
  unfold learnGuild
  split
  · rfl
  · rename_i known
    exact (if_neg known).symm

/-- The rows of a call, one after another, are learned as the guild manager learns them. -/
theorem exec_learnGuilds_guilds (w : GuildZone) (rows : List GuildInZoneEntry)
    : (Machine.exec step w (GuildOp.learnGuilds rows)).guilds = w.guilds.learnGuilds rows := by
  induction rows generalizing w with
  | nil => rfl
  | cons e rest ih =>
      have first := ih (w.learnGuild e)
      rw [learnGuild_guilds] at first
      exact first

end GuildZone

-----------------------------------------------------------------------------------------
-- Tags and what a client has of them
-----------------------------------------------------------------------------------------

/-- Every spawn has the tag that its ids stand for, and a client was last sent this tag under the
spawn's id.
-/
structure TagsCurrent (name : UInt16 → UInt16 → String) (spawns : OrderedMap Nat Spawn)
    (sent : OrderedMap UInt16 WireSpawn)
    : Prop where
  fresh
    : ∀ {key s}, spawns.find? key = some s → s.guildTag = name s.guildID s.guildServerID
  told
    : ∀ {key s}, spawns.find? key = some s →
        (sent.find? s.id).map (·.guildTag) = some s.guildTag

/-- The spawns with an id, but for the one under a key, have a tag. -/
def TaggedElsewhere (spawns : OrderedMap Nat Spawn) (key : Nat) (id : UInt16) (tag : String)
    : Prop :=
  ∀ entry ∈ spawns.entries, entry.1 ≠ key → entry.2.id = id → entry.2.guildTag = tag

/-- The spawns with an id have a tag. -/
def Tagged (spawns : OrderedMap Nat Spawn) (id : UInt16) (tag : String) : Prop :=
  ∀ entry ∈ spawns.entries, entry.2.id = id → entry.2.guildTag = tag

namespace TagsCurrent

variable {name : UInt16 → UInt16 → String} {spawns : OrderedMap Nat Spawn}
  {sent : OrderedMap UInt16 WireSpawn} {key : Nat} {s : Spawn}

theorem empty : TagsCurrent name .empty sent where
  fresh found := absurd found (by simp)
  told found := absurd found (by simp)

/-- A spawn put under a key with the tag of its ids, and sent in full. -/
theorem put_iff (current : TagsCurrent name spawns sent)
    (fresh : s.guildTag = name s.guildID s.guildServerID)
    : TagsCurrent name (spawns.insert key s)
        (sent.insert s.id (fillSpawn (.spawn s)))
      ↔ TaggedElsewhere spawns key s.id s.guildTag := by
  have sentNow : (sent.insert s.id (fillSpawn (.spawn s))).find? s.id
      = some (fillSpawn (.spawn s)) :=
    OrderedMap.find?_insert_self _ _ _
  constructor
  · intro after entry listed apart same
    have stays : (spawns.insert key s).find? entry.1 = some entry.2 := by
      rw [OrderedMap.find?_insert_of_ne _ _ apart]
      exact OrderedMap.find?_eq_some_iff.mpr listed
    have told := after.told stays
    rw [same, sentNow] at told
    exact (Option.some.inj told).symm
  · intro tagged
    constructor
    · intro other t found
      rw [OrderedMap.find?_insert] at found
      split at found
      · obtain rfl := Option.some.inj found
        exact fresh
      · exact current.fresh found
    · intro other t found
      rw [OrderedMap.find?_insert] at found
      by_cases same : t.id = s.id
      · rw [same, sentNow]
        split at found
        · obtain rfl := Option.some.inj found
          rfl
        · rename_i apart
          have tag := tagged (other, t) (OrderedMap.find?_eq_some_iff.mp found) apart same
          exact congrArg some tag.symm
      · rw [OrderedMap.find?_insert_of_ne _ _ same]
        split at found
        · obtain rfl := Option.some.inj found
          exact absurd rfl same
        · exact current.told found

/-- A known spawn that takes other ids, but keeps its tag, and is not sent. -/
theorem kept_iff {old : Spawn} (current : TagsCurrent name spawns sent)
    (known : spawns.find? key = some old) (id : s.id = old.id) (tag : s.guildTag = old.guildTag)
    : TagsCurrent name (spawns.insert key s) sent
      ↔ name s.guildID s.guildServerID = old.guildTag := by
  constructor
  · intro after
    exact (after.fresh (OrderedMap.find?_insert_self _ _ _)).symm.trans tag
  · intro named
    constructor
    · intro other t found
      rw [OrderedMap.find?_insert] at found
      split at found
      · obtain rfl := Option.some.inj found
        exact tag.trans named.symm
      · exact current.fresh found
    · intro other t found
      rw [OrderedMap.find?_insert] at found
      split at found
      · obtain rfl := Option.some.inj found
        rw [id, tag]
        exact current.told known
      · exact current.told found

/-- Spawns that stay as they are, while something is sent under one id. -/
theorem sent_iff {after : OrderedMap Nat Spawn} {later : OrderedMap UInt16 WireSpawn}
    {entry : WireSpawn} {id : UInt16} (current : TagsCurrent name spawns sent)
    (stay : ∀ {key s}, after.find? key = some s → spawns.find? key = some s)
    (sentNow : later.find? id = some entry)
    (others
      : ∀ {key s}, after.find? key = some s → s.id ≠ id →
          (later.find? s.id).map (·.guildTag) = some s.guildTag)
    : TagsCurrent name after later ↔ Tagged after id entry.guildTag := by
  constructor
  · rintro current ⟨key, s⟩ listed same
    have told := current.told (OrderedMap.find?_eq_some_iff.mpr listed)
    rw [same, sentNow] at told
    exact (Option.some.inj told).symm
  · intro tagged
    refine ⟨fun found => current.fresh (stay found), ?_⟩
    intro key s found
    by_cases same : s.id = id
    · rw [same, sentNow]
      have tag := tagged (key, s) (OrderedMap.find?_eq_some_iff.mp found) same
      exact congrArg some tag.symm
    · exact others found same

end TagsCurrent

-----------------------------------------------------------------------------------------
-- The names of guilds
-----------------------------------------------------------------------------------------

/-- The key under which a spawn's guild is looked up. -/
def Spawn.guildKey (s : Spawn) : UInt32 := s.guildServerID.toUInt32 <<< 16 ||| s.guildID.toUInt32

/-- Whether a row of guilds names a spawn's guild. -/
def GuildInZoneEntry.Names (e : GuildInZoneEntry) (s : Spawn) : Prop :=
  s.guildID ≠ 0 ∧ s.guildServerID ≠ 0 ∧ s.guildKey = e.key

/-- A row that `learnGuilds` takes in. -/
def GuildMgr.Learns (m : GuildMgr) (e : GuildInZoneEntry) : Prop :=
  e.name ≠ [] ∧ m.guildList.find? e.key = none

namespace GuildMgr

variable {m : GuildMgr} {e : GuildInZoneEntry} {s : Spawn}

/-- The guild's name for a spawn. -/
def nameOf (m : GuildMgr) (s : Spawn) : String := m.guildIdToName s.guildID s.guildServerID

theorem nameOf_of_unknown (learns : m.Learns e) (names : e.Names s) : m.nameOf s = "" := by
  obtain ⟨guildID, guildServerID, key⟩ := names
  have unknown : m.guildList.find? s.guildKey = none := key ▸ learns.2
  simp only [nameOf, guildIdToName]
  rw [if_neg (not_or.mpr ⟨guildID, guildServerID⟩), ← Spawn.guildKey, unknown]
  rfl

theorem nameOf_learned (learns : m.Learns e) (names : e.Names s)
    : (m.learnGuild e).nameOf s = String.ofList e.name := by
  obtain ⟨guildID, guildServerID, key⟩ := names
  have known : (m.learnGuild e).guildList.find? s.guildKey = some e.name := by
    obtain ⟨named, absent⟩ := learns
    rw [learnGuild, if_pos ⟨named, absent⟩, key]
    exact OrderedMap.find?_insert_self _ _ _
  simp only [nameOf, guildIdToName]
  rw [if_neg (not_or.mpr ⟨guildID, guildServerID⟩), ← Spawn.guildKey, known]
  rfl

theorem nameOf_other (other : ¬ e.Names s) : (m.learnGuild e).nameOf s = m.nameOf s := by
  simp only [nameOf, guildIdToName]
  split
  · rfl
  · rename_i ids
    obtain ⟨guildID, guildServerID⟩ := not_or.mp ids
    have apart : s.guildKey ≠ e.key := fun key => other ⟨guildID, guildServerID, key⟩
    unfold learnGuild
    split
    · rw [← Spawn.guildKey, OrderedMap.find?_insert_of_ne _ _ apart]
    · rfl

end GuildMgr

-----------------------------------------------------------------------------------------
-- Operations of the shell
-----------------------------------------------------------------------------------------

namespace Spawn

@[simp] theorem update_guildTag (s : Spawn) (d : SpawnStruct)
    : (s.update d).guildTag = s.guildTag := by
  simp only [update]
  split <;> rfl

@[simp] theorem update_guildID (s : Spawn) (d : SpawnStruct)
    : (s.update d).guildID = d.guildID.toUInt16 := by
  simp only [update]
  split <;> rfl

@[simp] theorem update_guildServerID (s : Spawn) (d : SpawnStruct)
    : (s.update d).guildServerID = d.guildServerID.toUInt16 := by
  simp only [update]
  split <;> rfl

end Spawn

@[simp] theorem Player.shown_guild (p : Player)
    : p.shown.guildTag = p.base.guildTag ∧ p.shown.guildID = p.base.guildID
      ∧ p.shown.guildServerID = p.base.guildServerID := by
  simp only [Player.shown]
  split <;> exact ⟨rfl, rfl, rfl⟩

namespace SpawnShell

variable {sh : SpawnShell}

/-- A spawn of a guild put under a key, with the tag of the guild, and sent in full. -/
structure PutsTagged (sh : SpawnShell) (key : Nat) (guildID guildServerID : UInt16)
    (result : SpawnShell × List SpawnSignal)
    : Prop where
  same : SameZone sh result.1
  put
    : ∃ s : Spawn,
        s.id = UInt16.ofNat key ∧ s.guildID = guildID ∧ s.guildServerID = guildServerID
        ∧ s.guildTag = sh.guildIdToName guildID guildServerID
        ∧ result.1.spawns = sh.spawns.insert key s
        ∧ ∀ zoneShort,
            result.2.flatMap (·.envelopes zoneShort) = [.spawnAdded (fillSpawn (.spawn s))]

theorem PutsTagged.setSpawn {after : SpawnShell} {key : Nat} {s : Spawn}
    {guildID guildServerID : UInt16} {signals : List SpawnSignal} (same : SameItems sh after)
    (names : after.guildIdToName = sh.guildIdToName) (id : s.id = UInt16.ofNat key)
    (ids : s.guildID = guildID ∧ s.guildServerID = guildServerID)
    (tag : s.guildTag = sh.guildIdToName s.guildID s.guildServerID)
    (sent
      : ∀ zoneShort,
          signals.flatMap (·.envelopes zoneShort) = [.spawnAdded (fillSpawn (.spawn s))])
    : sh.PutsTagged key guildID guildServerID (after.setSpawn key s, signals) where
  same := ⟨names, same.drops, same.doors⟩
  put := by
    obtain ⟨rfl, rfl⟩ := ids
    refine ⟨s, id, rfl, rfl, tag, ?_, sent⟩
    exact congrArg (fun spawns => spawns.insert key s) same.spawns

/-- A new spawn with its flags and its guild tag. -/
theorem PutsTagged.tagged {after : SpawnShell} {key : Nat} {s : Spawn}
    {guildID guildServerID : UInt16} {guildTag : String} {signals : List SpawnSignal}
    (m : FilterMgr) (same : SameItems sh after)
    (names : after.guildIdToName = sh.guildIdToName) (id : s.id = UInt16.ofNat key)
    (ids : s.guildID = guildID ∧ s.guildServerID = guildServerID)
    (tag : guildTag = after.guildIdToName s.guildID s.guildServerID)
    (sent
      : ∀ zoneShort,
          signals.flatMap (·.envelopes zoneShort)
          = [.spawnAdded (fillSpawn (.spawn { s.updateFlags m with guildTag }))])
    : sh.PutsTagged key guildID guildServerID
        (after.setSpawn key { s.updateFlags m with guildTag }, signals) :=
  .setSpawn same names id ids (names ▸ tag) sent

theorem putsTagged_newSpawn (keyed : sh.Keyed) {d : SpawnStruct} (new : ¬ Ignored d)
    : sh.PutsTagged d.spawnId.toNat d.guildID.toUInt16 d.guildServerID.toUInt16
        (sh.newSpawn d) := by
  obtain ⟨self, mount⟩ := not_or.mp new
  have forgotten : SameItems sh (sh.forgetDead d.spawnId) := ⟨rfl, rfl, rfl, rfl, rfl⟩
  have ids (s : Spawn)
      : (s.update d).guildID = d.guildID.toUInt16
        ∧ (s.update d).guildServerID = d.guildServerID.toUInt16 :=
    ⟨s.update_guildID d, s.update_guildServerID d⟩
  simp only [newSpawn, if_neg self, if_neg mount]
  cases known : (sh.forgetDead d.spawnId).spawns.find? d.spawnId.toNat with
  | none =>
      have made
          : (Spawn.ofStruct d).guildID = d.guildID.toUInt16
            ∧ (Spawn.ofStruct d).guildServerID = d.guildServerID.toUInt16 :=
        ids (.unknown d.spawnId.toUInt16 0 0 0 0 0 0 0 0 0)
      exact .tagged _ forgotten rfl (Spawn.ofStruct_id d) made rfl (sent_added _)
  | some s =>
      have id := (s.update_id d).trans (keyed.spawnId known)
      exact .tagged _ forgotten rfl id (ids s) rfl (sent_all _)

theorem putsTagged_upsertSpawn (keyed : sh.Keyed) {id : UInt16} (r : SpawnRecord)
    (other : id ≠ sh.player.id)
    : sh.PutsTagged id.toNat r.guildID r.guildServerID (sh.upsertSpawn id r) := by
  simp only [upsertSpawn, if_neg other]
  cases known : sh.spawns.find? id.toNat with
  | none => exact .setSpawn (.refl sh) rfl UInt16.ofNat_toNat.symm ⟨rfl, rfl⟩ rfl (sent_added _)
  | some s =>
      have id := keyed.spawnId (s := s) known
      exact .setSpawn (.refl sh) rfl id ⟨rfl, rfl⟩ rfl (sent_all _)

theorem putsTagged_respawnFromHover
    : sh.PutsTagged sh.player.id.toNat sh.player.base.guildID sh.player.base.guildServerID
        sh.respawnFromHover := by
  obtain ⟨_, guildID, guildServerID⟩ := (sh.player.setID 0).shown_guild
  refine ⟨⟨rfl, rfl, rfl⟩, sh.hoverCorpse, UInt16.ofNat_toNat.symm, guildID, guildServerID, ?_,
    rfl, sent_added _⟩
  exact congrArg₂ sh.guildIdToName guildID guildServerID

@[simp] theorem retagged_guildID (guildId : UInt32) (s : Spawn)
    : (sh.retagged guildId s).guildID = s.guildID := by
  unfold retagged
  split <;> rfl

@[simp] theorem retagged_guildServerID (guildId : UInt32) (s : Spawn)
    : (sh.retagged guildId s).guildServerID = s.guildServerID := by
  unfold retagged
  split <;> rfl

/-- The items that `updateGuildTag` signals: the spawns of the guild, and then the player. -/
theorem mem_tagSent {guildId : UInt32} {i : SpawnItem}
    : i ∈ sh.tagSent guildId
      ↔ (∃ key s, sh.spawns.find? key = some s ∧ guildId = s.guildID.toUInt32
          ∧ i = .spawn (sh.retagged guildId s))
        ∨ ((∃ key, key ∈ sh.players.keys) ∧ guildId = sh.player.base.guildID.toUInt32
          ∧ i
            = .player { sh.player with base := sh.retagged guildId sh.player.base }) := by
  simp only [tagSent, List.mem_append, List.mem_map, List.mem_filter, beq_iff_eq,
    OrderedMap.mapValues, retagged_guildID, OrderedMap.find?_eq_some_iff, OrderedMap.keys]
  constructor
  · rintro (⟨_, ⟨⟨entry, listed, rfl⟩, same⟩, rfl⟩ | ⟨entry, ⟨listed, same⟩, rfl⟩)
    · rw [retagged_guildID] at same
      exact Or.inl ⟨entry.1, entry.2, listed, same, rfl⟩
    · exact Or.inr ⟨⟨entry.1, entry, listed, rfl⟩, same, rfl⟩
  · rintro (⟨key, s, listed, same, rfl⟩ | ⟨⟨_, entry, listed, rfl⟩, same, rfl⟩)
    · refine Or.inl ⟨_, ⟨⟨(key, s), listed, rfl⟩, ?_⟩, rfl⟩
      rw [retagged_guildID]
      exact same
    · exact Or.inr ⟨entry, ⟨listed, same⟩, rfl⟩

/-- A player that `updateGuildTag` signals is signalled last. -/
theorem find?_tagSent_player {guildId : UInt32} (listed : ∃ key, key ∈ sh.players.keys)
    (same : guildId = sh.player.base.guildID.toUInt32) (sent : OrderedMap UInt16 WireSpawn)
    : (Replica.putAll SpawnItem.id fillSpawn sent (sh.tagSent guildId)).find? sh.player.base.id
      = some
          (fillSpawn
            (.player { sh.player with base := sh.retagged guildId sh.player.base })) := by
  obtain ⟨_, member⟩ := listed
  obtain ⟨entry, listed, rfl⟩ := List.mem_map.mp member
  let player : Player := { sh.player with base := sh.retagged guildId sh.player.base }
  have id : SpawnItem.id (.player player) = sh.player.base.id := retagged_id guildId _
  obtain ⟨front, parts⟩
      : ∃ front, sh.tagSent guildId
          = front ++ sh.players.entries.map fun _ => SpawnItem.player player := by
    have signalled : guildId == player.base.guildID.toUInt32 := by simp [player, same]
    have all
        : (sh.players.entries.filter fun _ => guildId == player.base.guildID.toUInt32)
          = sh.players.entries :=
      List.filter_eq_self.mpr fun _ _ => signalled
    simp only [tagSent]
    rw [all]
    exact ⟨_, rfl⟩
  rw [parts, Replica.putAll_append]
  rcases Replica.find?_putAll SpawnItem.id fillSpawn
      (sh.players.entries.map fun _ => .player player)
      (Replica.putAll SpawnItem.id fillSpawn sent front) sh.player.base.id with
    ⟨_, others⟩ | ⟨i, last, _, found⟩
  · exact absurd id (others _ (List.mem_map.mpr ⟨entry, listed, rfl⟩))
  · obtain ⟨_, _, rfl⟩ := List.mem_map.mp last
    exact found

end SpawnShell

-----------------------------------------------------------------------------------------
-- Steps
-----------------------------------------------------------------------------------------

namespace GuildZone

open SpawnShell

variable {w : GuildZone}

/-- Every spawn of the zone has the tag of its guild, and the client was last sent it. -/
def Current (w : GuildZone) : Prop :=
  TagsCurrent w.guilds.guildIdToName w.zone.shell.spawns w.zone.client.spawns

/-- What holds in any run: the ids are in order, the shell looks the names up where they are
learned, and only spawns and the player are about.
-/
structure Ready (w : GuildZone) : Prop where
  keyed : w.zone.shell.Keyed
  names : w.zone.shell.guildIdToName = w.guilds.guildIdToName
  drops : w.zone.shell.drops = .empty
  doors : w.zone.shell.doors = .empty
  subscribed : w.zone.subscribed = true

theorem Ready.perform (ready : w.Ready) {result : SpawnShell × List SpawnSignal}
    (keyed : result.1.Keyed) (same : SameZone w.zone.shell result.1)
    : (w.perform result).Ready where
  keyed := by simpa [GuildZone.perform] using keyed
  names := by simpa [GuildZone.perform] using same.names.trans ready.names
  drops := by simpa [GuildZone.perform] using same.drops.trans ready.drops
  doors := by simpa [GuildZone.perform] using same.doors.trans ready.doors
  subscribed := by simpa [GuildZone.perform] using ready.subscribed

theorem current_perform (ready : w.Ready) (result : SpawnShell × List SpawnSignal)
    : (w.perform result).Current
      ↔ TagsCurrent w.guilds.guildIdToName result.1.spawns
          (w.zone.client.receiveAll
            (result.2.flatMap (·.envelopes w.zone.shortZoneName))).spawns := by
  simp only [Current, GuildZone.perform, ZoneSession.perform_shell,
    ZoneSession.perform_client _ ready.subscribed]

theorem current_idle (ready : w.Ready) : (w.perform (w.zone.shell, [])).Current ↔ w.Current :=
  current_perform ready _

/-- A spawn put with its tag. -/
theorem current_putsTagged (ready : w.Ready) (current : w.Current) {key : Nat}
    {guildID guildServerID : UInt16} {result : SpawnShell × List SpawnSignal}
    (puts : w.zone.shell.PutsTagged key guildID guildServerID result)
    : (w.perform result).Current
      ↔ TaggedElsewhere w.zone.shell.spawns key (UInt16.ofNat key)
          (w.guilds.guildIdToName guildID guildServerID) := by
  obtain ⟨s, id, rfl, rfl, tag, spawns, sent⟩ := puts.put
  rw [ready.names] at tag
  rw [current_perform ready, spawns, sent, ← tag, ← id]
  exact current.put_iff tag

/-- What a record of a spawn must find for the tags to stay current: the other spawns with its
id on the wire have its tag.
-/
def NewKeepsTags (w : GuildZone) (d : SpawnStruct) : Prop :=
  ¬ Ignored d →
    TaggedElsewhere w.zone.shell.spawns d.spawnId.toNat d.spawnId.toUInt16
      (w.guilds.guildIdToName d.guildID.toUInt16 d.guildServerID.toUInt16)

theorem current_newSpawn (ready : w.Ready) (current : w.Current) (d : SpawnStruct)
    : (w.perform (w.zone.shell.newSpawn d)).Current ↔ w.NewKeepsTags d := by
  by_cases ignored : Ignored d
  · rw [newSpawn_ignored ignored, current_idle ready]
    exact iff_of_true current fun new => absurd ignored new
  · rw [current_putsTagged ready current (putsTagged_newSpawn ready.keyed ignored)]
    exact ⟨fun tagged _ => tagged, fun keeps => keeps ignored⟩

theorem current_upsertSpawn (ready : w.Ready) (current : w.Current) (id : UInt16)
    (r : SpawnRecord)
    : (w.perform (w.zone.shell.upsertSpawn id r)).Current
      ↔ (id ≠ w.zone.shell.player.id →
          TaggedElsewhere w.zone.shell.spawns id.toNat id
            (w.guilds.guildIdToName r.guildID r.guildServerID)) := by
  by_cases self : id = w.zone.shell.player.id
  · rw [upsertSpawn, if_pos self, current_idle ready]
    exact iff_of_true current fun other => absurd self other
  · rw [current_putsTagged ready current (putsTagged_upsertSpawn ready.keyed r self),
      UInt16.ofNat_toNat]
    exact ⟨fun tagged _ => tagged, fun keeps => keeps self⟩

theorem current_respawnFromHover (ready : w.Ready) (current : w.Current)
    : let player := w.zone.shell.player
      (w.perform w.zone.shell.respawnFromHover).Current
      ↔ TaggedElsewhere w.zone.shell.spawns player.id.toNat player.id
          (w.guilds.guildIdToName player.base.guildID player.base.guildServerID) := by
  intro player
  rw [current_putsTagged ready current putsTagged_respawnFromHover, UInt16.ofNat_toNat]

theorem tagged_erase (spawns : OrderedMap Nat Spawn) (key : Nat) (id : UInt16) (tag : String)
    : Tagged (spawns.erase key) id tag ↔ TaggedElsewhere spawns key id tag := by
  simp only [Tagged, TaggedElsewhere, OrderedMap.erase, List.mem_filter, bne_iff_ne, and_imp]

/-- A snapshot has the tags of the spawns, but for those with the player's id. -/
theorem told_snapshot {sh : SpawnShell} (keyed : sh.Keyed) (drops : sh.drops = .empty)
    (doors : sh.doors = .empty)
    (coherent
      : ∀ {key other s t}, sh.spawns.find? key = some s → sh.spawns.find? other = some t →
          s.id = t.id → s.guildTag = t.guildTag)
    {c : SpawnClient} {zoneShort : String} {key : Nat} {s : Spawn}
    (found : sh.spawns.find? key = some s) (apart : s.id ≠ sh.player.id)
    : ((c.receive (snapshotOf sh zoneShort)).spawns.find? s.id).map (·.guildTag)
      = some s.guildTag := by
  simp only [SpawnClient.receive, snapshotOf, insertAll_map, snapshotItems_eq keyed.listed]
  rcases Replica.find?_putAll SpawnItem.id fillSpawn (SpawnItem.inOrder sh.items) .empty s.id with
    ⟨_, others⟩ | ⟨i, member, id, sent⟩
  · have listed := SpawnItem.mem_inOrder.mpr (mem_items.mpr (.spawn found))
    exact absurd rfl (others _ listed)
  · rw [sent]
    cases mem_items.mp (SpawnItem.mem_inOrder.mp member) with
    | spawn other => exact congrArg some (coherent other found id)
    | drop other => exact absurd other (by simp [drops])
    | door other => exact absurd other (by simp [doors])
    | player _ => exact absurd id.symm apart

/-- What a client makes of the signals of a new id: nothing sent before the snapshot counts. -/
theorem receiveAll_changedID (sh : SpawnShell) (early : List SpawnSignal) (zoneShort : String)
    (c : SpawnClient)
    : ∃ before,
        (c.receiveAll
            ((early
              ++ [SpawnSignal.changedID sh,
                .changeItem (.player sh.player) tSpawnChangedALL]).flatMap
              (·.envelopes zoneShort))).spawns
        = (SpawnClient.receive before (snapshotOf sh zoneShort)).spawns.insert
            sh.player.base.id (fillSpawn (.player sh.player)) := by
  refine ⟨c.receiveAll (early.flatMap (·.envelopes zoneShort)), ?_⟩
  simp only [List.flatMap_append, SpawnClient.receiveAll, List.foldl_append]
  exact congrArg (OrderedMap.insert _ · _) (fillSpawn_id _)

/-- What a zone entry must find for the tags to stay current: of the player, that the spawns
with its id on the wire have its tag; of a known spawn, that the ids in the record stand for
the tag it has already.
-/
def EntryKeepsTags (w : GuildZone) (d : SpawnStruct) : Prop :=
  let id := d.spawnId.toUInt16
  let player := w.zone.shell.player
  let spawns := w.zone.shell.spawns
  if d.name = player.realName then
    if player.id = id then Tagged spawns id player.base.guildTag
    else TaggedElsewhere spawns id.toNat id player.base.guildTag
  else
    match spawns.find? d.spawnId.toNat with
    | some s =>
        w.guilds.guildIdToName d.guildID.toUInt16 d.guildServerID.toUInt16 = s.guildTag
    | none => w.NewKeepsTags d

theorem fillSpawn_player_guildTag (p : Player)
    : (fillSpawn (.player p)).guildTag = p.base.guildTag :=
  p.shown_guild.1

/-- The player as its own zone entry updates it, which is sent in full. -/
def entered (d : SpawnStruct) (sh : SpawnShell) : SpawnShell × List SpawnSignal :=
  let player := sh.player.update d
  ({ sh with player }, [.changeItem (.player player) tSpawnChangedALL])

theorem current_entered (ready : w.Ready) (current : w.Current) (d : SpawnStruct)
    (first : SpawnShell × List SpawnSignal)
    (stay
      : ∀ {key s}, first.1.spawns.find? key = some s →
          w.zone.shell.spawns.find? key = some s)
    (others
      : ∀ {key s}, first.1.spawns.find? key = some s → s.id ≠ first.1.player.base.id →
          ((w.zone.client.receiveAll
              (first.2.flatMap (·.envelopes w.zone.shortZoneName))).spawns.find? s.id).map
            (·.guildTag)
          = some s.guildTag)
    : (w.perform (andThen first (entered d))).Current
      ↔ Tagged first.1.spawns first.1.player.base.id first.1.player.base.guildTag := by
  have id : (SpawnItem.player (first.1.player.update d)).id = first.1.player.base.id :=
    Spawn.update_id _ d
  have tag : (fillSpawn (.player (first.1.player.update d))).guildTag
      = first.1.player.base.guildTag :=
    (fillSpawn_player_guildTag _).trans (Spawn.update_guildTag _ d)
  rw [current_perform ready]
  simp only [andThen, entered, List.flatMap_append, sent_all, SpawnClient.receiveAll,
    List.foldl_append, List.foldl_cons, List.foldl_nil, SpawnClient.receive, fillSpawn_id, id,
    ← tag]
  refine current.sent_iff stay (OrderedMap.find?_insert_self _ _ _) ?_
  intro key s found apart
  rw [OrderedMap.find?_insert_of_ne _ _ apart]
  exact others found apart

theorem current_playerEntry (ready : w.Ready) (current : w.Current) {d : SpawnStruct}
    (self : d.name = w.zone.shell.player.realName)
    : (w.perform (w.zone.shell.zoneEntry d)).Current ↔ w.EntryKeepsTags d := by
  have entry : w.zone.shell.zoneEntry d
      = andThen (w.zone.shell.setPlayerID d.spawnId.toUInt16) (entered d) := if_pos self
  rw [entry]
  simp only [EntryKeepsTags, if_pos self]
  by_cases same : w.zone.shell.player.id = d.spawnId.toUInt16
  · have stays : w.zone.shell.setPlayerID d.spawnId.toUInt16 = (w.zone.shell, []) := if_pos same
    rw [if_pos same, stays, ← same]
    exact current_entered ready current d (w.zone.shell, []) (fun found => found)
      (fun found _ => current.told found)
  · obtain ⟨early, takes, sent⟩ := setPlayerID_eq same
    have keyed : (w.zone.shell.setPlayerID d.spawnId.toUInt16).1.Keyed := by
      have tracks : Tracks (fun _ => ()) True w.zone.shell _ :=
        tracks_setPlayerID ready.keyed d.spawnId.toUInt16
      exact tracks.keyed
    have stay {key : Nat} {s : Spawn}
        (found : (w.zone.shell.setPlayerID d.spawnId.toUInt16).1.spawns.find? key = some s)
        : w.zone.shell.spawns.find? key = some s := by
      rw [takes.spawns, OrderedMap.find?_erase] at found
      split at found
      · exact absurd found (by simp)
      · exact found
    rw [if_neg same, current_entered ready current d _ stay, takes.spawns, takes.id, takes.guildTag,
      tagged_erase]
    intro key s found apart
    obtain ⟨before, received⟩ := receiveAll_changedID
      (w.zone.shell.setPlayerID d.spawnId.toUInt16).1 early w.zone.shortZoneName w.zone.client
    have noDrops := takes.same.drops.trans ready.drops
    have noDoors := takes.same.doors.trans ready.doors
    rw [sent, received, OrderedMap.find?_insert_of_ne _ _ apart]
    refine told_snapshot keyed noDrops noDoors ?_ found apart
    -- two spawns with one id have the one tag that the client was last sent under it
    intro key other s t there here id
    have first := current.told (stay there)
    rw [id, current.told (stay here)] at first
    exact (Option.some.inj first).symm

theorem current_zoneEntry (ready : w.Ready) (current : w.Current) (d : SpawnStruct)
    : (w.perform (w.zone.shell.zoneEntry d)).Current ↔ w.EntryKeepsTags d := by
  by_cases self : d.name = w.zone.shell.player.realName
  · exact current_playerEntry ready current self
  · simp only [EntryKeepsTags, zoneEntry, if_neg self]
    cases known : w.zone.shell.spawns.find? d.spawnId.toNat with
    | none => exact current_newSpawn ready current d
    | some s =>
        rw [current_perform ready, ← s.update_guildID d, ← s.update_guildServerID d]
        exact current.kept_iff known (s.update_id d) (s.update_guildTag d)

/-- What a row that is learned must find for the tags to stay current: the spawns it names have
its guild id; and the spawns with the id on the wire of one of the guild, or of a player of the
guild, then go by the same name.
-/
structure RowKeepsTags (w : GuildZone) (e : GuildInZoneEntry) : Prop where
  named
    : ∀ entry ∈ w.zone.shell.spawns.entries,
        e.Names entry.2 → e.guildId = entry.2.guildID.toUInt32
  spawns
    : ∀ tagged ∈ w.zone.shell.spawns.entries, e.guildId = tagged.2.guildID.toUInt32 →
        ∀ entry ∈ w.zone.shell.spawns.entries, entry.2.id = tagged.2.id →
          (w.guilds.learnGuild e).nameOf entry.2 = (w.guilds.learnGuild e).nameOf tagged.2
  player
    : e.guildId = w.zone.shell.player.base.guildID.toUInt32 →
        ∀ entry ∈ w.zone.shell.spawns.entries, entry.2.id = w.zone.shell.player.base.id →
          (w.guilds.learnGuild e).nameOf entry.2
          = (w.guilds.learnGuild e).nameOf w.zone.shell.player.base

section Row

variable {e : GuildInZoneEntry} {key : Nat} {s : Spawn}

/-- The spawn as the row's signal leaves it. -/
def retag (w : GuildZone) (e : GuildInZoneEntry) : Spawn → Spawn :=
  (w.renamed (w.guilds.learnGuild e)).retagged e.guildId

theorem retag_guildTag (guild : e.guildId = s.guildID.toUInt32)
    : (w.retag e s).guildTag = (w.guilds.learnGuild e).nameOf s := by
  rw [retag, retagged, if_pos guild]
  rfl

theorem retag_other (other : e.guildId ≠ s.guildID.toUInt32) : w.retag e s = s := if_neg other

theorem nameOf_retag (m : GuildMgr) : m.nameOf (w.retag e s) = m.nameOf s := by
  simp only [retag, GuildMgr.nameOf, retagged_guildID, retagged_guildServerID]

theorem retag_id : (w.retag e s).id = s.id := retagged_id _ _

/-- The spawns after a row that is learned, and what a client was last sent. -/
def spawnsAfter (w : GuildZone) (e : GuildInZoneEntry) : OrderedMap Nat Spawn :=
  w.zone.shell.spawns.mapValues (w.retag e)

def sentAfter (w : GuildZone) (e : GuildInZoneEntry) : OrderedMap UInt16 WireSpawn :=
  Replica.putAll SpawnItem.id fillSpawn w.zone.client.spawns
    ((w.renamed (w.guilds.learnGuild e)).tagSent e.guildId)

theorem current_learns (ready : w.Ready) (learns : w.guilds.Learns e)
    : (w.learnGuild e).Current
      ↔ TagsCurrent (w.guilds.learnGuild e).guildIdToName (w.spawnsAfter e) (w.sentAfter e) := by
  obtain ⟨name, absent⟩ := learns
  rw [learnGuild, if_pos ⟨name, absent⟩]
  simp only [Current, ZoneSession.perform_shell, ZoneSession.perform_client _ ready.subscribed,
    updateGuildTag_signals, sent_inFull inFull_all, receiveAll_added]
  rfl

theorem find?_spawnsAfter (known : w.zone.shell.spawns.find? key = some s)
    : (w.spawnsAfter e).find? key = some (w.retag e s) := by
  rw [spawnsAfter, OrderedMap.find?_mapValues, known]
  rfl

/-- The spawns have the tags that their ids stand for after the row. -/
theorem fresh_learned_iff (current : w.Current) (learns : w.guilds.Learns e)
    : (∀ {key s}, (w.spawnsAfter e).find? key = some s →
          s.guildTag = (w.guilds.learnGuild e).nameOf s)
      ↔ ∀ entry ∈ w.zone.shell.spawns.entries,
          e.Names entry.2 → e.guildId = entry.2.guildID.toUInt32 := by
  constructor
  · intro fresh entry listed names
    by_contra other
    have known := OrderedMap.find?_eq_some_iff.mpr listed
    have tag : entry.2.guildTag = "" :=
      (current.fresh known).trans (GuildMgr.nameOf_of_unknown learns names)
    have now := fresh (find?_spawnsAfter known)
    rw [retag_other other, tag, GuildMgr.nameOf_learned learns names] at now
    exact learns.1 (String.ofList_eq_empty_iff.mp now.symm)
  · intro named key t found
    obtain ⟨s, known, rfl⟩ :=
      Option.map_eq_some_iff.mp ((OrderedMap.find?_mapValues _ _ _).symm.trans found)
    rw [nameOf_retag]
    by_cases guild : e.guildId = s.guildID.toUInt32
    · exact retag_guildTag guild
    · have other : ¬ e.Names s := fun names =>
        guild (named (key, s) (OrderedMap.find?_eq_some_iff.mp known) names)
      rw [retag_other guild, GuildMgr.nameOf_other other]
      exact current.fresh known

/-- The player as the row's signal leaves it. -/
theorem retagged_player_guildTag (guild : e.guildId = w.zone.shell.player.base.guildID.toUInt32)
    : (fillSpawn
        (.player
          { w.zone.shell.player with base := w.retag e w.zone.shell.player.base })).guildTag
      = (w.guilds.learnGuild e).nameOf w.zone.shell.player.base :=
  (fillSpawn_player_guildTag _).trans (retag_guildTag guild)

theorem sentAfter_player (ready : w.Ready)
    (guild : e.guildId = w.zone.shell.player.base.guildID.toUInt32)
    : (w.sentAfter e).find? w.zone.shell.player.base.id
      = some
          (fillSpawn
            (.player
              { w.zone.shell.player with base := w.retag e w.zone.shell.player.base })) := by
  have listed : ∃ key, key ∈ (w.renamed (w.guilds.learnGuild e)).players.keys :=
    ready.keyed.listed
  exact find?_tagSent_player listed guild _

theorem RowKeepsTags.of_current (ready : w.Ready) (current : w.Current)
    (learns : w.guilds.Learns e)
    (after
      : TagsCurrent (w.guilds.learnGuild e).guildIdToName (w.spawnsAfter e) (w.sentAfter e))
    : w.RowKeepsTags e := by
  have tag {key : Nat} {s : Spawn} (known : w.zone.shell.spawns.find? key = some s)
      : ((w.sentAfter e).find? s.id).map (·.guildTag)
        = some ((w.guilds.learnGuild e).nameOf s) := by
    have told := after.told (find?_spawnsAfter known)
    rw [retag_id, after.fresh (find?_spawnsAfter known)] at told
    exact told.trans (congrArg some (nameOf_retag _))
  constructor
  · exact (fresh_learned_iff current learns).mp fun found => after.fresh found
  · intro tagged listed _ entry other id
    have first := tag (OrderedMap.find?_eq_some_iff.mpr other)
    rw [id, tag (OrderedMap.find?_eq_some_iff.mpr listed)] at first
    exact (Option.some.inj first).symm
  · intro guild entry listed id
    have last := sentAfter_player ready guild
    have told := tag (OrderedMap.find?_eq_some_iff.mpr listed)
    rw [id] at told
    have same := told.symm.trans (congrArg (Option.map (·.guildTag)) last)
    exact (Option.some.inj same).trans (retagged_player_guildTag guild)

theorem RowKeepsTags.current (keeps : w.RowKeepsTags e) (current : w.Current)
    (learns : w.guilds.Learns e)
    : TagsCurrent (w.guilds.learnGuild e).guildIdToName (w.spawnsAfter e) (w.sentAfter e) := by
  have fresh {key : Nat} {s : Spawn} (found : (w.spawnsAfter e).find? key = some s)
      : s.guildTag = (w.guilds.learnGuild e).nameOf s :=
    (fresh_learned_iff current learns).mpr keeps.named found
  refine ⟨fun found => fresh found, ?_⟩
  intro key t found
  obtain ⟨s, known, rfl⟩ :=
    Option.map_eq_some_iff.mp ((OrderedMap.find?_mapValues _ _ _).symm.trans found)
  have listed := OrderedMap.find?_eq_some_iff.mp known
  rw [fresh found, nameOf_retag, retag_id]
  rcases Replica.find?_putAll SpawnItem.id fillSpawn
      ((w.renamed (w.guilds.learnGuild e)).tagSent e.guildId) w.zone.client.spawns s.id with
    ⟨still, others⟩ | ⟨i, member, id, sent⟩
  · have other : e.guildId ≠ s.guildID.toUInt32 := fun guild =>
      others _ (mem_tagSent.mpr (Or.inl ⟨key, s, known, guild, rfl⟩)) retag_id
    have tag := fresh found
    rw [retag_other other] at tag
    rw [sentAfter, still, ← tag]
    exact current.told known
  · rw [sentAfter, sent]
    rcases mem_tagSent.mp member with ⟨other, t, there, guild, rfl⟩ | ⟨_, guild, rfl⟩
    · have same : s.id = t.id := id.symm.trans retag_id
      rw [keeps.spawns (other, t) (OrderedMap.find?_eq_some_iff.mp there) guild _ listed same]
      exact congrArg some (retag_guildTag guild)
    · have same : s.id = w.zone.shell.player.base.id := id.symm.trans retag_id
      rw [keeps.player guild _ listed same]
      exact congrArg some (retagged_player_guildTag guild)

theorem current_learnGuild (ready : w.Ready) (current : w.Current)
    : (w.learnGuild e).Current ↔ (w.guilds.Learns e → w.RowKeepsTags e) := by
  by_cases learns : w.guilds.Learns e
  · rw [current_learns ready learns]
    constructor
    · intro after _
      exact .of_current ready current learns after
    · intro keeps
      exact (keeps learns).current current learns
  · have idle : w.learnGuild e = w := if_neg learns
    rw [idle]
    exact iff_of_true current fun learned => absurd learned learns

end Row

-----------------------------------------------------------------------------------------
-- Runs
-----------------------------------------------------------------------------------------

/-- What an operation must find for the tags to stay current. -/
def KeepsTags (w : GuildZone) : GuildOp → Prop
  | .learnGuild e => w.guilds.Learns e → w.RowKeepsTags e
  | .newSpawn d => w.NewKeepsTags d
  | .newSpawnPacket d => w.zone.shell.isZoning = false → w.NewKeepsTags d
  | .zoneEntry d => w.EntryKeepsTags d
  | .upsertSpawn id r =>
      id ≠ w.zone.shell.player.id →
        TaggedElsewhere w.zone.shell.spawns id.toNat id
          (w.guilds.guildIdToName r.guildID r.guildServerID)
  | .respawnFromHover =>
      let player := w.zone.shell.player
      TaggedElsewhere w.zone.shell.spawns player.id.toNat player.id
        (w.guilds.guildIdToName player.base.guildID player.base.guildServerID)

theorem current_step (op : GuildOp) (ready : w.Ready) (current : w.Current)
    : (step op w).Current ↔ w.KeepsTags op := by
  cases op with
  | learnGuild e => exact current_learnGuild ready current
  | newSpawn d => exact current_newSpawn ready current d
  | newSpawnPacket d =>
      cases zoning : w.zone.shell.isZoning with
      | true =>
          simp only [step, newSpawnPacket, zoning, if_true, KeepsTags, current_idle ready]
          exact iff_of_true current fun absurdly => Bool.noConfusion absurdly
      | false =>
          simp only [step, newSpawnPacket, zoning, KeepsTags, forall_const]
          exact current_newSpawn ready current d
  | zoneEntry d => exact current_zoneEntry ready current d
  | upsertSpawn id r => exact current_upsertSpawn ready current id r
  | respawnFromHover => exact current_respawnFromHover ready current

theorem ready_step (op : GuildOp) (ready : w.Ready) : (step op w).Ready := by
  have keyed (op : ShellOp) : (op.run w.zone.shell).1.Keyed := by
    have tracks := tracks_run (g := fun _ => ()) ready.keyed (fun _ _ _ _ => rfl) op
    exact tracks.keyed
  cases op with
  | learnGuild e =>
      rw [step, learnGuild]
      split
      · have later
            : ((w.renamed (w.guilds.learnGuild e)).updateGuildTag e.guildId).1.Keyed :=
          keyed (.guildTagUpdated e.guildId (w.guilds.learnGuild e).guildIdToName)
        constructor
        · simpa using later
        · simp [updateGuildTag, renamed]
        · simpa [updateGuildTag, renamed] using ready.drops
        · simpa [updateGuildTag, renamed] using ready.doors
        · simpa using ready.subscribed
      · exact ready
  | newSpawn d => exact ready.perform (keyed (.newSpawn d)) (sameZone_newSpawn d)
  | newSpawnPacket d =>
      refine ready.perform (keyed (.newSpawnPacket d)) ?_
      rw [newSpawnPacket]
      split
      · exact .refl _
      · exact sameZone_newSpawn d
  | zoneEntry d => exact ready.perform (keyed (.zoneEntry d)) (sameZone_zoneEntry d)
  | upsertSpawn id r =>
      refine ready.perform (keyed (.upsertSpawn id r)) ?_
      by_cases self : id = w.zone.shell.player.id
      · rw [upsertSpawn, if_pos self]
        exact .refl _
      · exact (putsTagged_upsertSpawn ready.keyed r self).same
  | respawnFromHover =>
      exact ready.perform (keyed .respawnFromHover) putsTagged_respawnFromHover.same

theorem ready_fresh (guilds : GuildMgr) (player : Player) (filterMgr : FilterMgr)
    (createUnknownSpawns : Bool)
    : (fresh guilds player filterMgr createUnknownSpawns).Ready where
  keyed :=
    { spawnId := fun found => absurd found (by simp [fresh, ZoneSession.fresh,
        ZoneSession.subscribe, ZoneSession.sendSnapshot, SpawnShell.fresh])
      listed := ⟨0, OrderedMap.mem_keys_insert.mpr (Or.inl rfl)⟩ }
  names := rfl
  drops := rfl
  doors := rfl
  subscribed := rfl

theorem current_fresh (guilds : GuildMgr) (player : Player) (filterMgr : FilterMgr)
    (createUnknownSpawns : Bool)
    : (fresh guilds player filterMgr createUnknownSpawns).Current :=
  .empty

/-- The tags stay current in a run, in every state between two operations or two rows of guilds,
exactly where each operation finds what it must.
-/
theorem tags_current_iff (guilds : GuildMgr) (player : Player) (filterMgr : FilterMgr)
    (createUnknownSpawns : Bool) (ops : List GuildOp)
    : let start := fresh guilds player filterMgr createUnknownSpawns
      Machine.Always step Current start ops ↔ Machine.Permits step KeepsTags start ops :=
  Machine.always_iff_permits (ready_fresh _ _ _ _) (current_fresh _ _ _ _)
    (fun _ op ready => ready_step op ready) fun _ op ready current => current_step op ready current

/-- A player of a guild on server 1. -/
def memberOf (guildID : UInt32) : SpawnStruct :=
  { name := "Belgarath", lastName := "", spawnId := 7, level := 50, npc := SPAWN_PLAYER
    gender := 0, gm := 0, race := 1, bodytype := 1, curHp := 100, deity := 1, guildID
    guildServerID := 1, class_ := 1, light := 0, equipment := [], x := 0, y := 0, z := 0
    deltaX := 0, deltaY := 0, deltaZ := 0, heading := 0, deltaHeading := 0, animation := 0 }

/-- Two guilds, and zone entries of a player who has gone from one to the other. -/
def changesGuild : List GuildOp :=
  GuildOp.learnGuilds
      [{ guildId := 5, serverId := 1, name := ['O', 'l', 'd'] },
        { guildId := 6, serverId := 1, name := ['N', 'e', 'w'] }]
    ++ [.zoneEntry (memberOf 5), .zoneEntry (memberOf 6)]

theorem Current.tagged (current : w.Current) (key : Nat)
    : (w.zone.shell.spawns.find? key).all fun s => s.guildTag == w.guilds.nameOf s := by
  cases found : w.zone.shell.spawns.find? key with
  | none => rfl
  | some s => exact beq_iff_eq.mpr (current.fresh found)

/-- The second zone entry keeps the tag of the first. -/
theorem tag_goes_stale
    : ¬ ∀ guilds player filterMgr createUnknownSpawns ops,
        (Machine.exec step (fresh guilds player filterMgr createUnknownSpawns) ops).Current := by
  intro current
  let sh := ZoneSession.newcomer
  have tagged := (current .fresh sh.player sh.filterMgr true changesGuild).tagged 7
  exact absurd tagged (by decide +kernel)

end GuildZone
end Scry
