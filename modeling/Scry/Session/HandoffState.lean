import Scry.PacketStream.Handoff
import Scry.Session.SavedState

/-! What a daemon shows after a handoff, compared with the one that handed over. The streams,
the zone's names, the spawns and the player are written to files that the next process reads.
The guild tags, and of the player the race, the classes, the mana and whether the position is
valid, are in none of them.
-/

namespace Scry

open DataStream

/-- The state of a daemon that is handed over. -/
structure DaemonState where
  streams : List EQPacketStream
  shortZoneName : String
  longZoneName : String
  shell : SpawnShell
  stats : PlayerRecord

/-- The files of a handoff. -/
structure HandoffFiles where
  streams : Option (UInt32 × UInt32 × List EQPacketStream.StreamHandoff)
  zone : Option SavedFile
  spawns : Option SavedFile
  player : Option SavedFile

namespace DaemonState

def handoffMagic : UInt32 := 0x45514853

def handoffVersion : UInt32 := 1

/-- `magicStr` of the zone manager, "zon2". -/
def zoneMagic : UInt32 := 0x326e6f7a

/-- A daemon that has just started. -/
def fresh (streams : List EQPacketStream) (settings : PlayerSettings) (filterMgr : FilterMgr)
    (guildIdToName : UInt16 → UInt16 → String) (createUnknownSpawns : Bool)
    : DaemonState :=
  { streams
    shortZoneName := "unknown"
    longZoneName := "unknown"
    shell := .fresh (.init settings) filterMgr guildIdToName createUnknownSpawns
    stats := .cleared 0 }

/-- `saveZoneState`. -/
def saveZoneState (d : DaemonState) : SavedFile :=
  [uint32.write zoneMagic, string.write d.longZoneName, string.write d.shortZoneName]

/-- `restoreZoneState`: the long name and the short one. -/
def restoreZoneState (d : DaemonState) : Option SavedFile → String × String
  | none => (d.longZoneName, d.shortZoneName)
  | some file =>
      let restore : StateM SavedFile (String × String) := do
        let magicTest ← uint32.get
        if magicTest ≠ zoneMagic then pure (d.longZoneName, d.shortZoneName)
        else
          let longZoneName ← string.get
          let shortZoneName ← string.get
          pure (longZoneName, shortZoneName)
      (restore.run file).1

/-- `exportHandoffState`. -/
def exportHandoffState (build : Build) (d : DaemonState) : HandoffFiles :=
  { streams :=
      some (handoffMagic, handoffVersion, d.streams.map EQPacketStream.exportState)
    zone := some d.saveZoneState
    spawns := some (d.shell.saveSpawns build d.shortZoneName)
    player := some (d.shell.player.savePlayerState build d.stats d.shortZoneName) }

/-- `importHandoffState`, and whether there was a state to import. -/
def importHandoffState (build : Build) (d : DaemonState) (files : HandoffFiles)
    : DaemonState × Bool :=
  match files.streams with
  | none => (d, false)
  | some (magic, version, streams) =>
      if magic ≠ handoffMagic ∨ version ≠ handoffVersion then (d, false)
      else
        let zone := d.restoreZoneState files.zone
        let shell := (d.shell.restoreSpawns build files.spawns).1
        let player := shell.player.restorePlayerState build d.stats files.player
        ({ streams := List.zipWith EQPacketStream.importState d.streams streams
           longZoneName := zone.1
           shortZoneName := zone.2
           shell := { shell with player := player.1 }
           stats := player.2 }, true)

end DaemonState

-----------------------------------------------------------------------------------------
-- What is to be the same
-----------------------------------------------------------------------------------------

/-- What a handoff is to keep of a spawn. -/
structure SpawnFacts where
  id : UInt16
  name : String
  lastName : String
  level : Int32
  race : UInt16
  classVal : UInt8
  curHP : Int32
  maxHP : Int32
  guildTag : String
  position : Int16 × Int16 × Int16

def Spawn.facts (s : Spawn) : SpawnFacts :=
  { id := s.id
    name := s.name
    lastName := s.lastName
    level := s.level
    race := s.race
    classVal := s.classVal
    curHP := s.curHP
    maxHP := s.maxHP
    guildTag := s.guildTag
    position := (s.x, s.y, s.z) }

/-- What a handoff is to keep of the player. -/
structure PlayerFacts where
  name : String
  lastName : String
  level : Int32
  race : UInt16
  classVal : UInt8
  classMask : UInt32
  deity : UInt16
  id : UInt16
  position : Int16 × Int16 × Int16
  playerSkills : List.Vector UInt32 maxKnownSkills
  hitPoints : Int32 × Int32 × UInt16
  manaPoints : UInt16 × UInt16 × UInt16
  validStam : Bool
  validMana : Bool
  validHP : Bool
  validExp : Bool
  validAttributes : Bool
  validPos : Bool

/-- The player as its accessors show it, with its own fields. -/
def Player.facts (p : Player) (t : PlayerRecord) : PlayerFacts :=
  { name := p.shown.name
    lastName := p.shown.lastName
    level := p.shown.level
    race := p.shown.race
    classVal := p.shown.classVal
    classMask := t.classMask
    deity := p.shown.deity
    id := p.id
    position := (p.base.x, p.base.y, p.base.z)
    playerSkills := t.playerSkills
    hitPoints := (p.base.curHP, p.base.maxHP, t.plusHP)
    manaPoints := (t.mana, t.maxMana, t.plusMana)
    validStam := t.validStam
    validMana := t.validMana
    validHP := t.validHP
    validExp := t.validExp
    validAttributes := t.validAttributes
    validPos := t.validPos }

/-- A spawn of the shell. -/
def SpawnShell.Has (sh : SpawnShell) (s : Spawn) : Prop := ∃ key, (key, s) ∈ sh.spawns.entries

/-- Two daemons of which a client is shown the same. -/
structure DaemonState.SameState (d d' : DaemonState) : Prop where
  shortZoneName : d'.shortZoneName = d.shortZoneName
  longZoneName : d'.longZoneName = d.longZoneName
  spawns : ∀ facts, (∃ s, d'.shell.Has s ∧ s.facts = facts) ↔ ∃ s, d.shell.Has s ∧ s.facts = facts
  player : d'.shell.player.facts d'.stats = d.shell.player.facts d.stats

/-- What is not in the files is as in a daemon that has just started: no spawn has a guild tag,
the player's race is 1 unless the configured one is shown, and it has no classes, no mana and no
valid position. Spawns of one id are one, or alike.
-/
structure DaemonState.Restorable (d : DaemonState) : Prop where
  untagged : ∀ s, d.shell.Has s → s.guildTag = ""
  alike : ∀ s s', d.shell.Has s → d.shell.Has s' → s.id = s'.id → s.facts = s'.facts
  race : (!d.shell.player.useAutoDetectedSettings || d.shell.player.useDefaults) = true
    ∨ d.shell.player.base.race = 1
  classMask : d.stats.classMask = 0
  mana : d.stats.mana = 0
  validPos : d.stats.validPos = false

-----------------------------------------------------------------------------------------
-- The spawns
-----------------------------------------------------------------------------------------

namespace Spawn

/-- A spawn as it comes out of a file. -/
def restored (s : Spawn) : Spawn :=
  { s with
    deltaX := 0, deltaY := 0, deltaZ := 0, heading := 0, deltaHeading := 0
    guildTag := "", filterFlags := 0, runtimeFilterFlags := 0 }

@[simp]
theorem ofFile_bind_run {β : Type} (id : UInt16) (s : Spawn) (rest : SavedFile)
    (k : Spawn → StateM SavedFile β)
    : (ofFile id >>= k).run (s.saveSpawn ++ rest) = (k s.restored).run rest := by
  simp only [ofFile, saveSpawn, bind_assoc, List.cons_append, List.nil_append,
    DataField.get_bind_run, pure_bind]
  rfl

/-- The flags that the filters set are none of the facts. -/
theorem facts_restored (s : Spawn) (filterMgr : FilterMgr)
    : (s.restored.updateFlags filterMgr).facts = { s.facts with guildTag := "" } := rfl

end Spawn

namespace SpawnShell

variable {sh : SpawnShell} {key : Nat} {s : Spawn}

/-- Spawns put under their ids one after the other. -/
def putAll (sh : SpawnShell) (spawns : List Spawn) : SpawnShell :=
  spawns.foldl (fun sh s => sh.setSpawn s.id.toNat s) sh

/-- The entries that were written are put back, by induction on them. -/
theorem restoreEntries_run (entries : List (Nat × Spawn)) (sh : SpawnShell)
    : ((restoreEntries entries.length sh).run
        (entries.flatMap fun entry => uint16.write entry.2.id :: entry.2.saveSpawn)).1.1
      = sh.putAll (entries.map fun entry => entry.2.restored.updateFlags sh.filterMgr) := by
  induction entries generalizing sh with
  | nil => rfl
  | cons entry rest ih =>
      simp only [List.length_cons, restoreEntries, List.flatMap_cons, List.cons_append,
        DataField.get_bind_run, Spawn.ofFile_bind_run]
      exact ih _

/-- What is under a key was put there or was there before. -/
theorem mem_putAll {spawns : List Spawn} (member : (key, s) ∈ (sh.putAll spawns).spawns.entries)
    : (s ∈ spawns ∧ key = s.id.toNat) ∨ (key, s) ∈ sh.spawns.entries := by
  induction spawns generalizing sh with
  | nil => exact .inr member
  | cons first rest ih =>
      rcases ih member with ⟨later, same⟩ | before
      · exact .inl ⟨List.mem_cons_of_mem _ later, same⟩
      · rcases OrderedMap.mem_entries_insert.mp before with here | ⟨old, _⟩
        · obtain ⟨rfl, rfl⟩ := Prod.mk.inj here
          exact .inl ⟨List.mem_cons_self, rfl⟩
        · exact .inr old

/-- A key that has a spawn keeps one. -/
theorem putAll_keeps {spawns : List Spawn} (member : (key, s) ∈ sh.spawns.entries)
    : ∃ s', (key, s') ∈ (sh.putAll spawns).spawns.entries := by
  induction spawns generalizing sh s with
  | nil => exact ⟨s, member⟩
  | cons first rest ih =>
      by_cases same : key = first.id.toNat
      · exact ih (s := first) (OrderedMap.mem_entries_insert.mpr (.inl (by rw [same])))
      · exact ih (s := s) (OrderedMap.mem_entries_insert.mpr (.inr ⟨member, same⟩))

/-- Every spawn that is put finds one under its id afterwards. -/
theorem putAll_has {spawns : List Spawn} (member : s ∈ spawns)
    : ∃ s', (s.id.toNat, s') ∈ (sh.putAll spawns).spawns.entries := by
  induction spawns generalizing sh with
  | nil => exact absurd member List.not_mem_nil
  | cons first rest ih =>
      rcases List.mem_cons.mp member with rfl | later
      · have placed : (s.id.toNat, s) ∈ (sh.setSpawn s.id.toNat s).spawns.entries :=
          OrderedMap.mem_entries_insert.mpr (.inl rfl)
        exact @putAll_keeps _ _ _ rest placed
      · exact ih later

theorem restoreSpawns_saveSpawns (build : Build) (saved sh : SpawnShell) (zone : String)
    (few : saved.spawns.size < 2 ^ 32)
    : (sh.restoreSpawns build (some (saved.saveSpawns build zone))).1
      = sh.putAll
          (saved.spawns.entries.map fun entry => entry.2.restored.updateFlags sh.filterMgr) := by
  have count : (UInt32.ofNat saved.spawns.size).toNat = saved.spawns.entries.length :=
    UInt32.toNat_ofNat_of_lt' few
  rw [← restoreEntries_run]
  simp only [restoreSpawns, saveSpawns, DataField.get_bind_run, ne_eq, not_true_eq_false,
    if_false, count]

/-- In an empty shell, the facts are kept exactly where no spawn has a guild tag, and spawns of
one id are alike: of these the last one is left.
-/
theorem facts_putAll_iff {saved : SpawnShell} (empty : sh.spawns = .empty)
    : (∀ facts,
        (∃ s, (sh.putAll (saved.spawns.entries.map fun entry =>
            entry.2.restored.updateFlags sh.filterMgr)).Has s ∧ s.facts = facts)
        ↔ ∃ s, saved.Has s ∧ s.facts = facts)
      ↔ (∀ s, saved.Has s → s.guildTag = "")
        ∧ ∀ s s', saved.Has s → saved.Has s' → s.id = s'.id → s.facts = s'.facts := by
  generalize spawns : (saved.spawns.entries.map fun entry =>
    entry.2.restored.updateFlags sh.filterMgr) = restored
  -- what is left under a key is a saved spawn of that id without its tag
  have left {key : Nat} {s : Spawn} (member : (key, s) ∈ (sh.putAll restored).spawns.entries)
      : key = s.id.toNat ∧ ∃ s', saved.Has s' ∧ s.facts = { s'.facts with guildTag := "" } := by
    rcases mem_putAll member with ⟨among, same⟩ | before
    · rw [← spawns] at among
      obtain ⟨entry, inside, rfl⟩ := List.mem_map.mp among
      exact ⟨same, entry.2, ⟨entry.1, inside⟩, rfl⟩
    · rw [empty] at before
      exact absurd before List.not_mem_nil
  have found {s : Spawn} (has : saved.Has s)
      : ∃ s', (s.id.toNat, s') ∈ (sh.putAll restored).spawns.entries := by
    obtain ⟨key, inside⟩ := has
    apply putAll_has (s := s.restored.updateFlags sh.filterMgr)
    rw [← spawns]
    exact List.mem_map_of_mem (f := fun entry => entry.2.restored.updateFlags sh.filterMgr) inside
  constructor
  · intro same
    have kept {s : Spawn} (has : saved.Has s)
        : ∃ s', (s.id.toNat, s') ∈ (sh.putAll restored).spawns.entries ∧ s'.facts = s.facts := by
      obtain ⟨s', ⟨key, inside⟩, equal⟩ := (same s.facts).mpr ⟨s, has, rfl⟩
      obtain ⟨rfl, _⟩ := left inside
      have id : s'.id = s.id := congrArg SpawnFacts.id equal
      exact ⟨s', id ▸ inside, equal⟩
    constructor
    · intro s has
      obtain ⟨s', inside, equal⟩ := kept has
      obtain ⟨_, t, _, untagged⟩ := left inside
      exact congrArg SpawnFacts.guildTag (equal.symm.trans untagged)
    · intro s t has has' id
      obtain ⟨s', inside, equal⟩ := kept has
      obtain ⟨t', inside', equal'⟩ := kept has'
      rw [← id] at inside'
      obtain ⟨-, rfl⟩ := Prod.mk.inj (OrderedMap.entry_unique inside inside' rfl)
      exact equal.symm.trans equal'
  · rintro ⟨untagged, alike⟩ facts
    have facts_eq {t : Spawn} (has : saved.Has t) : { t.facts with guildTag := "" } = t.facts := by
      rw [← untagged t has]
      rfl
    constructor
    · rintro ⟨s, ⟨key, inside⟩, rfl⟩
      obtain ⟨_, t, has, equal⟩ := left inside
      exact ⟨t, has, (equal.trans (facts_eq has)).symm⟩
    · rintro ⟨s, has, rfl⟩
      obtain ⟨s', inside⟩ := found has
      obtain ⟨same, t, has', equal⟩ := left inside
      have id : t.id = s.id :=
        (congrArg SpawnFacts.id equal).symm.trans (UInt16.toNat_inj.mp same).symm
      exact ⟨s', ⟨_, inside⟩, (equal.trans (facts_eq has')).trans (alike t s has' has id)⟩

end SpawnShell

-----------------------------------------------------------------------------------------
-- The player
-----------------------------------------------------------------------------------------

namespace Player

variable {p q : Player} {t u : PlayerRecord}

/-- A player that the state of another one is read into. -/
def takes (q p : Player) : Player :=
  { q with
    base :=
      { q.base with
        name := p.base.name
        lastName := p.base.lastName
        level := p.base.level
        classVal := p.base.classVal
        deity := p.base.deity
        id := p.base.id
        x := p.base.x
        y := p.base.y
        z := p.base.z
        deltaX := p.base.deltaX
        deltaY := p.base.deltaY
        deltaZ := p.base.deltaZ
        heading := p.base.heading
        curHP := p.base.curHP
        maxHP := p.base.maxHP }
    headingDegrees := (Int16.ofInt p.headingDegrees).toInt
    useDefaults := p.useDefaults }

/-- The own fields of a player that those of another one are read into. -/
def takesStats (u t : PlayerRecord) : PlayerRecord :=
  { t with
    classMask := u.classMask
    mana := u.mana
    enduranceCur := u.enduranceCur
    enduranceMax := u.enduranceMax
    currentAAUnspent := u.currentAAUnspent
    minExp := u.minExp
    tickExp := u.tickExp
    validStam := u.validStam || t.validStam
    validMana := u.validMana || t.validMana
    validHP := u.validHP || t.validHP
    validExp := u.validExp || t.validExp
    validAttributes := u.validAttributes || t.validAttributes
    validPos := u.validPos }

theorem savedFlags_bits (p : Player) (t : PlayerRecord)
    : (p.savedFlags t &&& 0x01 != 0) = t.validStam ∧ (p.savedFlags t &&& 0x02 != 0) = t.validMana
      ∧ (p.savedFlags t &&& 0x04 != 0) = t.validHP ∧ (p.savedFlags t &&& 0x08 != 0) = t.validExp
      ∧ (p.savedFlags t &&& 0x10 != 0) = t.validAttributes
      ∧ (p.savedFlags t &&& 0x20 != 0) = p.useDefaults := by
  unfold savedFlags
  cases t.validStam <;> cases t.validMana <;> cases t.validHP <;> cases t.validExp
    <;> cases t.validAttributes <;> cases p.useDefaults <;> decide

/-- What `savePlayerState` wrote is read back, field by field. -/
theorem restorePlayerState_savePlayerState (build : Build) (p q : Player) (t u : PlayerRecord)
    (zone : String)
    : q.restorePlayerState build u (some (p.savePlayerState build t zone))
      = (q.takes p, takesStats u t) := by
  obtain ⟨stam, mana, hp, exp, attributes, defaults⟩ := savedFlags_bits p t
  simp only [restorePlayerState, savePlayerState, List.cons_append, List.nil_append,
    DataField.get_bind_run, ne_eq, not_true_eq_false, if_false, restoreFields,
    DataField.getMany_bind_run, stam, mana, hp, exp, attributes, defaults]
  rfl

/-- With the same settings, the player shows the same where the fields that no file holds have the
values of a new player.
-/
theorem facts_takes_iff (p : Player) (t : PlayerRecord)
    : ((init p.settings).takes p).facts (takesStats (.cleared 0) t) = p.facts t
      ↔ ((!p.useAutoDetectedSettings || p.useDefaults) = true ∨ p.base.race = 1)
        ∧ t.classMask = 0 ∧ t.mana = 0 ∧ t.validPos = false := by
  rw [eq_comm]
  cases defaults : (!p.useAutoDetectedSettings || p.useDefaults) with
  | true =>
      have first : p.shown = _ := if_pos defaults
      have second : ((init p.settings).takes p).shown = _ := if_pos defaults
      rw [facts, facts, first, second]
      simp [takes, takesStats, init, zoneChanged, settings, PlayerRecord.cleared, Player.id]
  | false =>
      have first : p.shown = _ := if_neg (by simp [defaults])
      have second : ((init p.settings).takes p).shown = _ := if_neg (by
        change ¬ (!p.useAutoDetectedSettings || p.useDefaults) = true
        simp [defaults])
      rw [facts, facts, first, second]
      simp [takes, takesStats, init, zoneChanged, settings, PlayerRecord.cleared, Player.id]

end Player

-----------------------------------------------------------------------------------------
-- The handoff
-----------------------------------------------------------------------------------------

namespace DaemonState

variable {build : Build} {saved : DaemonState}

theorem restoreZoneState_saveZoneState (d saved : DaemonState)
    : d.restoreZoneState (some saved.saveZoneState)
      = (saved.longZoneName, saved.shortZoneName) := by
  simp only [restoreZoneState, saveZoneState, DataField.get_bind_run, ne_eq, not_true_eq_false,
    if_false]
  rfl

/-- The files that were exported are all read. -/
theorem importHandoffState_exportHandoffState (build : Build) (d saved : DaemonState)
    : d.importHandoffState build (saved.exportHandoffState build)
      = ({ streams :=
             List.zipWith EQPacketStream.importState d.streams
               (saved.streams.map EQPacketStream.exportState)
           longZoneName := saved.longZoneName
           shortZoneName := saved.shortZoneName
           shell :=
             { (d.shell.restoreSpawns build
                 (some (saved.shell.saveSpawns build saved.shortZoneName))).1 with
               player :=
                 (d.shell.restoreSpawns build
                   (some (saved.shell.saveSpawns build saved.shortZoneName))).1.player.takes
                   saved.shell.player }
           stats := Player.takesStats d.stats saved.stats }, true) := by
  simp only [importHandoffState, exportHandoffState, ne_eq, not_true_eq_false, or_self, if_false,
    restoreZoneState_saveZoneState, Player.restorePlayerState_savePlayerState]

end DaemonState

theorem SpawnShell.player_putAll (sh : SpawnShell) (spawns : List Spawn)
    : (sh.putAll spawns).player = sh.player := by
  induction spawns generalizing sh with
  | nil => rfl
  | cons first rest ih => exact ih _

namespace DaemonState

variable {build : Build} {saved : DaemonState} {streams : List EQPacketStream}
  {filterMgr : FilterMgr} {guildIdToName : UInt16 → UInt16 → String} {createUnknownSpawns : Bool}

/-- A daemon that starts with the settings of the one that handed over. -/
def successor (saved : DaemonState) (streams : List EQPacketStream) (filterMgr : FilterMgr)
    (guildIdToName : UInt16 → UInt16 → String) (createUnknownSpawns : Bool)
    : DaemonState :=
  fresh streams saved.shell.player.settings filterMgr guildIdToName createUnknownSpawns

/-- No rules. -/
def plainFilters : FilterMgr := ⟨fun _ _ => 0, fun _ _ => 0⟩

/-- A zone with one spawn, before a profile came. -/
def quietZone : DaemonState :=
  { streams := []
    shortZoneName := "qeynos"
    longZoneName := "South Qeynos"
    shell :=
      (SpawnShell.fresh (.init ⟨true, "You", "", 1, 1, 1, 396⟩) plainFilters (fun _ _ => "")
        true).setSpawn 5 (.unknown 5 1 2 3 0 0 0 0 0 0)
    stats := .cleared 0 }

end DaemonState

end Scry
