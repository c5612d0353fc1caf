import Scry.Spawns.ZoneSession

/-! A zone entry and a new spawn of the same record. The branch for a known id is written in
both, and a zone entry stops after the fields.
-/

namespace Scry
namespace SpawnShell

variable {sh : SpawnShell} {d : SpawnStruct}

/-- The record is of another spawn than the player, and of none that is skipped. -/
structure OfOther (sh : SpawnShell) (d : SpawnStruct) : Prop where
  name : d.name ≠ sh.player.realName
  self : d.npc ≠ SPAWN_SELF
  mount : Spawn.calcIsMount d.race d.level = false

/-- What `newSpawn` adds to the fields of a record: the flags and the guild's name. -/
def tagged (sh : SpawnShell) (s : Spawn) : Spawn :=
  { s.updateFlags sh.filterMgr with guildTag := sh.guildIdToName s.guildID s.guildServerID }

theorem zoneEntry_unknown (other : sh.OfOther d)
    (unknown : sh.spawns.find? d.spawnId.toNat = none)
    : sh.zoneEntry d = sh.newSpawn d := by
  rw [zoneEntry, if_neg other.name, unknown]

theorem zoneEntry_known (other : sh.OfOther d) {s : Spawn}
    (known : sh.spawns.find? d.spawnId.toNat = some s)
    : sh.zoneEntry d = (sh.setSpawn d.spawnId.toNat (s.update d), []) := by
  rw [zoneEntry, if_neg other.name, known]

theorem newSpawn_known (other : sh.OfOther d) {s : Spawn}
    (known : sh.spawns.find? d.spawnId.toNat = some s)
    : sh.newSpawn d
      = ((sh.forgetDead d.spawnId).setSpawn d.spawnId.toNat (sh.tagged (s.update d)),
        [.changeItem (.spawn (sh.tagged (s.update d))) tSpawnChangedALL]) := by
  have still : (sh.forgetDead d.spawnId).spawns.find? d.spawnId.toNat = some s := known
  rw [newSpawn, if_neg other.self, if_neg (by rw [other.mount]; exact Bool.false_ne_true)]
  simp only [still]
  rfl

/-- For a known id both leave the same shell exactly where the flags and the guild's name come
out as they were, and no entry of the dead is found.
-/
theorem zoneEntry_shell_eq_iff (other : sh.OfOther d) {s : Spawn}
    (known : sh.spawns.find? d.spawnId.toNat = some s)
    : (sh.zoneEntry d).1 = (sh.newSpawn d).1
      ↔ sh.tagged (s.update d) = s.update d ∧ sh.forgetDead d.spawnId = sh := by
  rw [zoneEntry_known other known, newSpawn_known other known]
  constructor
  · intro same
    have stored := congrArg (fun sh => sh.spawns.find? d.spawnId.toNat) same
    simp only [setSpawn, OrderedMap.find?_insert_self, Option.some.injEq] at stored
    have dead := congrArg SpawnShell.deadSpawnID same
    simp only [setSpawn] at dead
    refine ⟨stored.symm, ?_⟩
    change { sh with deadSpawnID := (sh.forgetDead d.spawnId).deadSpawnID } = sh
    rw [← dead]
  · rintro ⟨fresh, same⟩
    rw [fresh, same]

/-- A zone entry is processed as a new spawn exactly where its id is not known yet: that of a
known id never tells of the change.
-/
theorem zoneEntry_eq_newSpawn_iff (other : sh.OfOther d)
    : sh.zoneEntry d = sh.newSpawn d ↔ sh.spawns.find? d.spawnId.toNat = none := by
  cases known : sh.spawns.find? d.spawnId.toNat with
  | none => exact iff_of_true (zoneEntry_unknown other known) rfl
  | some s =>
      refine iff_of_false ?_ (by simp)
      intro same
      have signals := congrArg Prod.snd same
      rw [zoneEntry_known other known, newSpawn_known other known] at signals
      contradiction

/-- The record of an orc. -/
def anOrc : SpawnStruct :=
  { name := "an_orc01", lastName := "", spawnId := 5, level := 3, npc := SPAWN_NPC, gender := 0
    gm := 0, race := 54, bodytype := 1, curHp := 100, deity := 0, guildID := 0
    guildServerID := 0, class_ := 1, light := 0, equipment := [], x := 0, y := 0, z := 0
    deltaX := 0, deltaY := 0, deltaZ := 0, heading := 0, deltaHeading := 0, animation := 0 }

theorem zoneEntry_anOrc
    : ZoneSession.newcomer.zoneEntry anOrc = ZoneSession.newcomer.newSpawn anOrc :=
  (zoneEntry_eq_newSpawn_iff ⟨by decide, by decide, by decide⟩).mpr rfl

/-- The second zone entry of a spawn sends no client anything. -/
theorem zoneEntry_ne_newSpawn
    : (ZoneSession.newcomer.newSpawn anOrc).1.zoneEntry anOrc
      ≠ (ZoneSession.newcomer.newSpawn anOrc).1.newSpawn anOrc := by
  intro same
  have signals := congrArg (fun result => result.2.length) same
  exact absurd signals (by decide)

end SpawnShell
end Scry
