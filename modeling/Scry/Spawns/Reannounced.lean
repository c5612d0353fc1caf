import Scry.Spawns.ZoneSession

/-! A spawn that is announced under an id, which may be known already: its spawn or corpse of
before may be another one.
-/

namespace Scry

/-- What a record says of a spawn, as it is stored, with the flags of the filters that match it.
-/
structure Announced where
  name : String
  lastName : String
  x : Int16
  y : Int16
  z : Int16
  heading : Int8
  level : Int32
  curHP : Int32
  maxHP : Int32
  race : UInt16
  classVal : UInt8
  classMask : UInt32
  deity : UInt16
  guildID : UInt16
  guildServerID : UInt16
  guildTag : String
  npc : UInt8
  filterFlags : UInt32
  runtimeFilterFlags : UInt32
  deriving DecidableEq

def Spawn.announced (s : Spawn) : Announced :=
  { name := s.name, lastName := s.lastName, x := s.x, y := s.y, z := s.z, heading := s.heading
    level := s.level, curHP := s.curHP, maxHP := s.maxHP, race := s.race, classVal := s.classVal
    classMask := s.classMask, deity := s.deity, guildID := s.guildID
    guildServerID := s.guildServerID, guildTag := s.guildTag, npc := s.npc
    filterFlags := s.filterFlags, runtimeFilterFlags := s.runtimeFilterFlags }

namespace SpawnShell

variable {sh : SpawnShell} {id : UInt16} {r : SpawnRecord} {old : Spawn}

/-- What is stored under an id after a record of it. -/
def announcedAfter (sh : SpawnShell) (id : UInt16) (r : SpawnRecord) : Option Announced :=
  ((sh.upsertSpawn id r).1.spawns.find? id.toNat).map Spawn.announced

/-- The shell without a spawn under an id. -/
def without (sh : SpawnShell) (id : UInt16) : SpawnShell :=
  { sh with spawns := sh.spawns.erase id.toNat }

/-- A record is stored as if the id were unknown before. -/
def AsFresh (sh : SpawnShell) (id : UInt16) (r : SpawnRecord) : Prop :=
  sh.announcedAfter id r = (sh.without id).announcedAfter id r

/-- The spawn of a record under a new id, before it is matched with the filters. -/
def unflagged (sh : SpawnShell) (id : UInt16) (r : SpawnRecord) : Spawn :=
  sh.applyIdentity r { Spawn.unknown id r.x r.y r.z 0 0 0 0 0 0 with name := r.name }

/-- A spawn has what a record does not set of it: the name, a last name that is none, and the
flags that the filters give to the new spawn.
-/
structure HasLeftOver (sh : SpawnShell) (id : UInt16) (r : SpawnRecord) (old : Spawn) : Prop where
  name : old.name = r.name
  lastName : r.lastName = "" → old.lastName = ""
  filterFlags : old.filterFlags = (sh.unflagged id r).filterMask sh.filterMgr
  runtimeFilterFlags : old.runtimeFilterFlags = (sh.unflagged id r).runtimeFilterMask sh.filterMgr

-----------------------------------------------------------------------------------------
-- The two branches
-----------------------------------------------------------------------------------------

theorem announcedAfter_unknown (other : id ≠ sh.player.id)
    (unknown : sh.spawns.find? id.toNat = none)
    : sh.announcedAfter id r
      = some ((sh.unflagged id r).updateFlags sh.filterMgr).announced := by
  rw [announcedAfter, upsertSpawn, if_neg other, unknown]
  dsimp only [setSpawn]
  rw [OrderedMap.find?_insert_self]
  rfl

theorem announcedAfter_known (other : id ≠ sh.player.id)
    (known : sh.spawns.find? id.toNat = some old)
    : sh.announcedAfter id r
      = some (sh.applyIdentity r { old with x := r.x, y := r.y, z := r.z }).announced := by
  rw [announcedAfter, upsertSpawn, if_neg other, known]
  dsimp only [setSpawn]
  rw [OrderedMap.find?_insert_self]
  rfl

theorem announcedAfter_without (other : id ≠ sh.player.id)
    : (sh.without id).announcedAfter id r
      = some ((sh.unflagged id r).updateFlags sh.filterMgr).announced := by
  have unknown : (sh.without id).spawns.find? id.toNat = none := OrderedMap.find?_erase_self _ _
  exact announcedAfter_unknown other unknown

/-- Both branches set the same, but for what a known spawn has left over. -/
theorem announced_applyIdentity_iff
    : (sh.applyIdentity r { old with x := r.x, y := r.y, z := r.z }).announced
        = ((sh.unflagged id r).updateFlags sh.filterMgr).announced
      ↔ sh.HasLeftOver id r old := by
  constructor
  · intro same
    have lastName : (if r.lastName = "" then old.lastName else r.lastName)
        = if r.lastName = "" then "" else r.lastName := congrArg Announced.lastName same
    refine ⟨congrArg Announced.name same, fun unset => ?_, congrArg Announced.filterFlags same,
      congrArg Announced.runtimeFilterFlags same⟩
    rwa [if_pos unset, if_pos unset] at lastName
  · rintro ⟨name, lastName, filterFlags, runtimeFilterFlags⟩
    have lastName : (if r.lastName = "" then old.lastName else r.lastName)
        = if r.lastName = "" then "" else r.lastName := by
      split
      next unset => exact lastName unset
      · rfl
    unfold Spawn.announced
    rw [Announced.mk.injEq]
    exact ⟨name, lastName, rfl, rfl, rfl, rfl, rfl, rfl, rfl, rfl, rfl, rfl, rfl, rfl, rfl, rfl,
      rfl, filterFlags, runtimeFilterFlags⟩

/-- A spawn is stored as if it were new exactly where the id is unknown, or its spawn of before
has what the record does not set.
-/
theorem asFresh_iff (r : SpawnRecord) (other : id ≠ sh.player.id)
    : sh.AsFresh id r ↔ ∀ old, sh.spawns.find? id.toNat = some old → sh.HasLeftOver id r old := by
  rw [AsFresh, announcedAfter_without other]
  cases found : sh.spawns.find? id.toNat with
  | none =>
      rw [announcedAfter_unknown other found]
      exact iff_of_true rfl fun old known => (Option.some_ne_none old known.symm).elim
  | some old =>
      rw [announcedAfter_known other found, Option.some.injEq, announced_applyIdentity_iff]
      exact ⟨fun left _ known => Option.some.inj known ▸ left, fun all => all old rfl⟩

/-- A rat and a bat that come under one id. -/
def sampleRecord (name : String) : SpawnRecord :=
  { name, lastName := "", x := 0, y := 0, z := 0, heading := 0, level := 1, curHpPct := 100
    maxHpPct := 100, race := 36, classVal := 1, deity := 0, guildID := 0, guildServerID := 0, npc := 1
    classMask := 0 }

/-- The rat is known under the id 5. -/
def ratKnown : SpawnShell := (ZoneSession.newcomer.upsertSpawn 5 (sampleRecord "rat")).1

theorem asFresh_iff_rat
    : ratKnown.AsFresh 5 (sampleRecord "rat")
      ↔ ∀ old, ratKnown.spawns.find? 5 = some old → ratKnown.HasLeftOver 5 (sampleRecord "rat") old :=
  asFresh_iff (sampleRecord "rat") (by decide)

/-- The bat is stored under the rat's name. -/
theorem not_asFresh : ¬ ratKnown.AsFresh 5 (sampleRecord "bat") := by
  intro asFresh
  have names := congrArg (Option.map Announced.name) asFresh
  exact absurd names (by decide)

end SpawnShell

end Scry
