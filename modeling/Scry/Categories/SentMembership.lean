import Scry.Categories.Membership

/-! The operations that send a spawn or the player in full, and those that change a spawn without
sending it: what each must find for a client to be current about the categories.
-/

namespace Scry

-----------------------------------------------------------------------------------------
-- What is sent in full
-----------------------------------------------------------------------------------------

namespace SpawnShell

variable {sh : SpawnShell} {categories : List PlainCategory}

/-- An item that is new goes out in full. -/
theorem sentInFull_added (i : SpawnItem)
    : [SpawnSignal.addItem i].flatMap SpawnSignal.sentInFull = [i] := rfl

/-- A change goes out in full, or in part. -/
theorem sentInFull_changed (i : SpawnItem) (changeType : UInt32)
    : [SpawnSignal.changeItem i changeType].flatMap SpawnSignal.sentInFull
      = if inFull changeType then [i] else [] :=
  List.flatMap_singleton _ _

theorem sentInFull_all (i : SpawnItem)
    : [SpawnSignal.changeItem i tSpawnChangedALL].flatMap SpawnSignal.sentInFull = [i] := by
  rw [sentInFull_changed, if_pos inFull_all]

theorem sentInFull_position (i : SpawnItem)
    : [SpawnSignal.changeItem i tSpawnChangedPosition].flatMap SpawnSignal.sentInFull = [] := by
  rw [sentInFull_changed, if_neg (by decide)]

theorem sentInFull_level (i : SpawnItem)
    : [SpawnSignal.changeItem i tSpawnChangedLevel].flatMap SpawnSignal.sentInFull = [] := by
  rw [sentInFull_changed, if_neg (by decide)]

/-- A new name goes out in full where it changes flags. -/
theorem sentInFull_name (i : SpawnItem) (old new : Spawn)
    : [SpawnSignal.changeItem i (tSpawnChangedName ||| flagChanges old new)].flatMap
          SpawnSignal.sentInFull
      = if flagChanges old new = 0 then [] else [i] := by
  rw [sentInFull_changed]
  split_ifs with full same same
  · rw [same] at full
    exact absurd full (by decide)
  · rfl
  · rfl
  · exact absurd (inFull_flagChanges same _) full

/-- A shell with nothing about but spawns and the player. -/
structure SpawnsOnly (sh : SpawnShell) : Prop where
  keyed : sh.Keyed
  drops : sh.drops = .empty
  doors : sh.doors = .empty

theorem SpawnsOnly.of_same {after : SpawnShell} (only : sh.SpawnsOnly) (keyed : after.Keyed)
    (same : SameZone sh after)
    : after.SpawnsOnly :=
  ⟨keyed, same.drops.trans only.drops, same.doors.trans only.doors⟩

/-- What a snapshot of them lists. -/
theorem SpawnsOnly.mem_snapshot (only : sh.SpawnsOnly) {i : SpawnItem}
    : i ∈ SpawnItem.inOrder (snapshotItems sh)
      ↔ (∃ key s, sh.spawns.find? key = some s ∧ i = .spawn s) ∨ i = .player sh.player := by
  rw [snapshotItems_eq only.keyed.listed, SpawnItem.mem_inOrder, mem_items]
  constructor
  · intro holds
    cases holds with
    | spawn found => exact Or.inl ⟨_, _, found, rfl⟩
    | drop found => exact absurd found (by simp [only.drops])
    | door found => exact absurd found (by simp [only.doors])
    | player _ => exact Or.inr rfl
  · rintro (⟨key, s, found, rfl⟩ | rfl)
    · exact .spawn found
    · obtain ⟨_, listed⟩ := only.keyed.listed
      exact .player listed

end SpawnShell

namespace CategorySession

open SpawnShell

variable {categories : List PlainCategory} {x : CategorySession} {key : Nat} {s : Spawn}
  {result : SpawnShell × List SpawnSignal}

/-- Spawns that look the same under the same flags are in the same categories. -/
theorem membership_of_look {s t : Spawn} (look : s.look = t.look)
    (filter : s.filterFlags = t.filterFlags) (runtime : s.runtimeFilterFlags = t.runtimeFilterFlags)
    : s.membership categories = t.membership categories := by
  have level : s.filterLevel = t.filterLevel :=
    congrArg (fun l : SpawnLook => l.level.toUInt32.toUInt8) look
  have asked (c : PlainCategory)
      : c.isFiltered t.filterFlags t.runtimeFilterFlags s.filterString t.filterLevel
        = c.isFiltered t.filterFlags t.runtimeFilterFlags t.filterString t.filterLevel :=
    c.looksOnlyAt s t look _ _ _
  simp only [Spawn.membership, categoryIds, filter, runtime, level, asked]

-----------------------------------------------------------------------------------------
-- One spawn
-----------------------------------------------------------------------------------------

/-- What the client was sent stays current under a condition, and only then. -/
def Keeps (categories : List PlainCategory) (x : CategorySession) (keeps : Prop)
    (result : SpawnShell × List SpawnSignal)
    : Prop :=
  x.Current categories → ((x.perform categories result).Current categories ↔ keeps)

theorem Keeps.congr {keeps other : Prop} (kept : Keeps categories x keeps result)
    (same : keeps ↔ other)
    : Keeps categories x other result :=
  fun current => (kept current).trans same

/-- Nothing is sent in full, and the spawns stay. -/
theorem Keeps.still {keeps : Prop} (spawns : result.1.spawns = x.shell.spawns)
    (sent : result.2.flatMap SpawnSignal.sentInFull = []) (held : keeps)
    : Keeps categories x keeps result := by
  intro current
  refine iff_of_true ?_ held
  intro key s found
  have before : x.shell.spawns.find? key = some s := spawns ▸ found
  have told : (x.perform categories result).sent = x.sent := by
    simp only [perform, sent]
    rfl
  exact told ▸ current before

theorem Keeps.idle {keeps : Prop} (held : keeps) : Keeps categories x keeps (x.shell, []) :=
  .still rfl rfl held

/-- A spawn is put under a key, and sent in full. -/
theorem Keeps.sent (spawns : result.1.spawns = x.shell.spawns.insert key s)
    (sent : result.2.flatMap SpawnSignal.sentInFull = [.spawn s])
    : Keeps categories x (x.AgreesElsewhere categories key s) result := by
  intro current
  have told : (x.perform categories result).sent
      = x.sent.insert s.id (s.membership categories) := by
    simp only [perform, sent]
    rfl
  have here : (x.perform categories result).sent.find? s.id = some (s.membership categories) :=
    told ▸ OrderedMap.find?_insert_self _ _ _
  constructor
  · intro after other t apart found same
    have stays : result.1.spawns.find? other = some t := by
      rw [spawns, OrderedMap.find?_insert_of_ne _ _ apart]
      exact found
    have now := after stays
    rw [same, here] at now
    exact (Option.some.inj now).symm
  · intro agrees other t found
    have found : result.1.spawns.find? other = some t := found
    rw [spawns, OrderedMap.find?_insert] at found
    rcases eq_or_ne t.id s.id with same | apart
    · rw [same, here]
      split at found
      · obtain rfl := Option.some.inj found
        rfl
      · rename_i elsewhere
        exact congrArg some (agrees other t elsewhere found same).symm
    · rw [told, OrderedMap.find?_insert_of_ne _ _ apart]
      split at found
      · obtain rfl := Option.some.inj found
        exact absurd rfl apart
      · exact current found

/-- A known spawn changes, and is not sent in full. -/
theorem Keeps.unsent {old : Spawn} (spawns : result.1.spawns = x.shell.spawns.insert key s)
    (known : x.shell.spawns.find? key = some old) (id : s.id = old.id)
    (sent : result.2.flatMap SpawnSignal.sentInFull = [])
    : Keeps categories x (s.membership categories = old.membership categories) result := by
  intro current
  have told : (x.perform categories result).sent = x.sent := by
    simp only [perform, sent]
    rfl
  have here : result.1.spawns.find? key = some s :=
    spawns ▸ OrderedMap.find?_insert_self _ _ _
  constructor
  · intro after
    have now := after here
    rw [told, id, current known] at now
    exact (Option.some.inj now).symm
  · intro same other t found
    have found : result.1.spawns.find? other = some t := found
    rw [told]
    rw [spawns, OrderedMap.find?_insert] at found
    split at found
    · obtain rfl := Option.some.inj found
      rw [id, same]
      exact current known
    · exact current found

/-- A change to the spawn known under a key. -/
theorem Keeps.withSpawn {f : Spawn → Spawn × List SpawnSignal} {keeps : Spawn → Prop}
    (id : ∀ s, (f s).1.id = s.id)
    (changed
      : ∀ s, x.shell.spawns.find? key = some s →
          (f s).2.flatMap SpawnSignal.sentInFull = []
            ∧ (keeps s ↔ (f s).1.membership categories = s.membership categories)
          ∨ (f s).2.flatMap SpawnSignal.sentInFull = [.spawn (f s).1]
            ∧ (keeps s ↔ x.AgreesElsewhere categories key (f s).1))
    : Keeps categories x (∀ s, x.shell.spawns.find? key = some s → keeps s)
        (x.shell.withSpawn key f) := by
  rw [SpawnShell.withSpawn]
  cases known : x.shell.spawns.find? key with
  | none => exact .idle (by simp)
  | some old =>
      have only : keeps old ↔ ∀ s, some old = some s → keeps s := by simp
      rcases changed old known with ⟨none, iff⟩ | ⟨full, iff⟩
      · exact (Keeps.unsent rfl known (id old) none).congr (iff.symm.trans only)
      · exact (Keeps.sent rfl full).congr (iff.symm.trans only)

-----------------------------------------------------------------------------------------
-- The player
-----------------------------------------------------------------------------------------

/-- The player is sent last, and the client is current as far as the other ids go. -/
theorem Keeps.player {p : Player} {early : List SpawnItem}
    (sent : result.2.flatMap SpawnSignal.sentInFull = early ++ [.player p])
    (others
      : x.Current categories → ∀ {key s}, result.1.spawns.find? key = some s → s.id ≠ p.id →
          (Replica.putAll SpawnItem.id (fillMembership categories) x.sent early).find? s.id
          = some (s.membership categories))
    : Keeps categories x
        (∀ key t, result.1.spawns.find? key = some t → t.id = p.id →
          t.membership categories = p.shown.membership categories)
        result := by
  intro current
  have told : (x.perform categories result).sent
      = (Replica.putAll SpawnItem.id (fillMembership categories) x.sent early).insert p.id
          (p.shown.membership categories) := by
    simp only [perform, sent, Replica.putAll_append]
    rfl
  constructor
  · intro after key t found same
    have now := after found
    rw [told, same, OrderedMap.find?_insert_self] at now
    exact (Option.some.inj now).symm
  · intro agrees key t found
    rw [told]
    rcases eq_or_ne t.id p.id with same | apart
    · rw [same, OrderedMap.find?_insert_self]
      exact congrArg some (agrees key t found same).symm
    · rw [OrderedMap.find?_insert_of_ne _ _ apart]
      exact others current found apart

/-- The spawns stay, and the player is sent. -/
theorem Keeps.playerOnly {p : Player} (spawns : result.1.spawns = x.shell.spawns)
    (sent : result.2.flatMap SpawnSignal.sentInFull = [.player p])
    : Keeps categories x (x.AgreesPlayer categories p) result := by
  have last : result.2.flatMap SpawnSignal.sentInFull = [] ++ [.player p] := sent
  have kept : Keeps categories x _ result :=
    .player last fun current _ _ found _ => current (spawns ▸ found)
  rw [spawns] at kept
  exact kept

-----------------------------------------------------------------------------------------
-- Operations
-----------------------------------------------------------------------------------------

theorem recorded_known {sh : SpawnShell} {d : SpawnStruct}
    (known : sh.spawns.find? d.spawnId.toNat = some s)
    : sh.recorded d = (s.update d).updateFlags sh.filterMgr := by
  rw [recorded, known]

theorem recorded_new {sh : SpawnShell} {d : SpawnStruct}
    (unknown : sh.spawns.find? d.spawnId.toNat = none)
    : sh.recorded d = (Spawn.ofStruct d).updateFlags sh.filterMgr := by
  rw [recorded, unknown]

/-- The tag that a spawn is given is nothing that is asked of it. -/
theorem agreesElsewhere_tagged (t : Spawn) (guildTag : String)
    : x.AgreesElsewhere categories key { t with guildTag } ↔ x.AgreesElsewhere categories key t := by
  have same : Spawn.membership categories { t with guildTag } = t.membership categories :=
    membership_of_look rfl rfl rfl
  simp only [AgreesElsewhere, same]

/-- A spawn is put with its flags and its guild's name. -/
theorem Keeps.tagged {after : SpawnShell} {t : Spawn} {guildTag : String}
    {signals : List SpawnSignal} (same : after.spawns = x.shell.spawns)
    (sent : signals.flatMap SpawnSignal.sentInFull = [.spawn { t with guildTag }])
    : Keeps categories x (x.AgreesElsewhere categories key t)
        (after.setSpawn key { t with guildTag }, signals) := by
  have spawns : (after.setSpawn key { t with guildTag }).spawns
      = x.shell.spawns.insert key { t with guildTag } :=
    congrArg (fun spawns => spawns.insert key { t with guildTag }) same
  exact (Keeps.sent spawns sent).congr (agreesElsewhere_tagged t guildTag)

theorem keeps_newSpawn (d : SpawnStruct)
    : Keeps categories x (x.NewAgrees categories d) (x.shell.newSpawn d) := by
  by_cases ignored : Ignored d
  · rw [newSpawn_ignored ignored]
    exact .idle fun new => absurd ignored new
  · obtain ⟨self, mount⟩ := not_or.mp ignored
    have agrees : x.NewAgrees categories d
        ↔ x.AgreesElsewhere categories d.spawnId.toNat (x.shell.recorded d) :=
      ⟨fun agrees => agrees ignored, fun agrees _ => agrees⟩
    simp only [newSpawn, if_neg self, if_neg mount]
    cases known : (x.shell.forgetDead d.spawnId).spawns.find? d.spawnId.toNat with
    | none =>
        have made : x.shell.recorded d = _ := recorded_new known
        rw [agrees, made]
        exact .tagged rfl (sentInFull_added _)
    | some s =>
        have updated : x.shell.recorded d = _ := recorded_known known
        rw [agrees, updated]
        exact .tagged rfl (sentInFull_all _)

theorem keeps_newSpawnPacket (d : SpawnStruct)
    : Keeps categories x (x.shell.isZoning = false → x.NewAgrees categories d)
        (x.shell.newSpawnPacket d) := by
  rw [newSpawnPacket]
  cases x.shell.isZoning with
  | true => exact .idle fun absurdly => Bool.noConfusion absurdly
  | false => exact (keeps_newSpawn d).congr ⟨fun agrees _ => agrees, fun agrees => agrees rfl⟩

theorem keeps_upsertSpawn (id : UInt16) (r : SpawnRecord)
    : Keeps categories x
        (id ≠ x.shell.player.id →
          x.AgreesElsewhere categories id.toNat (x.shell.upserted id r))
        (x.shell.upsertSpawn id r) := by
  rw [upsertSpawn]
  by_cases self : id = x.shell.player.id
  · rw [if_pos self]
    exact .idle fun other => absurd self other
  · rw [if_neg self]
    have agrees
        : x.AgreesElsewhere categories id.toNat (x.shell.upserted id r)
          ↔ (id ≠ x.shell.player.id →
              x.AgreesElsewhere categories id.toNat (x.shell.upserted id r)) :=
      ⟨fun agrees _ => agrees, fun agrees => agrees self⟩
    refine Keeps.congr ?_ agrees
    rw [upserted]
    cases known : x.shell.spawns.find? id.toNat with
    | none => exact .sent rfl (sentInFull_added _)
    | some s => exact .sent rfl (sentInFull_all _)

theorem keeps_updateSpawn (id : UInt16) (m : Movement)
    : Keeps categories x (x.MovementAgrees categories id m) (x.shell.updateSpawn id m) := by
  rw [updateSpawn]
  by_cases self : id = x.shell.player.id
  · rw [if_pos self]
    exact .still rfl (sentInFull_position _) fun other => absurd self other
  · rw [if_neg self]
    cases known : x.shell.spawns.find? id.toNat with
    | some s =>
        have looks : (moved m s).membership categories = s.membership categories :=
          membership_of_look rfl rfl rfl
        refine Keeps.congr (.unsent rfl known rfl (sentInFull_position _))
          (iff_of_true looks fun _ unknown => ?_)
        exact absurd (known.symm.trans unknown) (by simp)
    | none =>
        by_cases creates : x.shell.createUnknownSpawns = true
        · cases dead : x.shell.deadIndex id with
          | some i =>
              simp only [if_pos creates]
              refine .still rfl rfl fun _ _ _ alive => ?_
              exact absurd (dead.symm.trans alive) (by simp)
          | none =>
              simp only [if_pos creates]
              refine Keeps.congr (.sent rfl (sentInFull_added _)) ?_
              exact ⟨fun agrees _ _ _ _ => agrees, fun agrees => agrees self known creates dead⟩
        · simp only [if_neg creates]
          exact .idle fun _ _ some => absurd some creates

theorem keeps_npcMoveUpdate (id : UInt16) (m : Movement)
    : Keeps categories x (x.shell.isZoning = false → x.MovementAgrees categories id m)
        (x.shell.npcMoveUpdate id m) := by
  rw [npcMoveUpdate]
  cases x.shell.isZoning with
  | true => exact .idle fun absurdly => Bool.noConfusion absurdly
  | false =>
      exact (keeps_updateSpawn id m).congr ⟨fun agrees _ => agrees, fun agrees => agrees rfl⟩

/-- The player's own updates go another way. -/
theorem keeps_playerUpdate (id : UInt16) (m : Movement)
    : Keeps categories x (x.shell.isZoning = false → x.MovementAgrees categories id m)
        (x.shell.playerUpdate id m) := by
  by_cases self : id = x.shell.player.id
  · rw [playerUpdate, if_pos (Or.inr self)]
    exact .idle fun _ other => absurd self other
  · have same : x.shell.playerUpdate id m = x.shell.npcMoveUpdate id m := by
      simp only [playerUpdate, npcMoveUpdate, self, or_false]
    rw [same]
    exact keeps_npcMoveUpdate id m

theorem keeps_updateSpawnIdentity (id : UInt16) (level classVal : UInt8)
    : Keeps categories x
        (x.KeepsMembership categories (.updateSpawnIdentity id level classVal))
        (x.shell.updateSpawnIdentity id level classVal) :=
  .withSpawn (fun _ => rfl) fun _ _ => Or.inr ⟨sentInFull_all _, Iff.rfl⟩

theorem keeps_illusionSpawn (id race : UInt32) (gender : UInt8)
    : Keeps categories x (x.KeepsMembership categories (.illusionSpawn id race gender))
        (x.shell.illusionSpawn id race gender) :=
  .withSpawn (fun _ => rfl) fun _ _ => Or.inr ⟨sentInFull_all _, Iff.rfl⟩

theorem keeps_updateSpawnAppearance (id kind parameter : UInt32)
    : Keeps categories x
        (x.KeepsMembership categories (.updateSpawnAppearance id kind parameter))
        (x.shell.updateSpawnAppearance id kind parameter) := by
  rw [updateSpawnAppearance]
  by_cases leveled : kind = 1 ∧ parameter ≠ 0
  · simp only [if_pos leveled]
    refine Keeps.congr (.withSpawn (fun _ => rfl) fun _ _ =>
      Or.inl ⟨sentInFull_level _, Iff.rfl⟩) ?_
    exact ⟨fun same _ _ => same, fun same => same leveled.1 leveled.2⟩
  · simp only [if_neg leveled]
    refine Keeps.congr (.withSpawn (fun _ => rfl) fun _ _ => Or.inl ⟨rfl, Iff.rfl⟩) ?_
    refine iff_of_true (fun _ _ => rfl) ?_
    exact fun one some => absurd ⟨one, some⟩ leveled

theorem keeps_corpseLoc (id : UInt32) (a b c : Int16)
    : Keeps categories x (x.KeepsMembership categories (.corpseLoc id a b c))
        (x.shell.corpseLoc id a b c) := by
  -- where the corpse lies is nothing that is asked of it
  have lies (s : Spawn)
      : Spawn.membership categories
          (if s.npc = SPAWN_PLAYER ∨ s.npc = SPAWN_PC_CORPSE then { s with x := b, y := a, z := c }
            else { s with x := a, y := b, z := c }).killSpawn
        = s.killSpawn.membership categories := by
    split <;> exact membership_of_look rfl rfl rfl
  refine .withSpawn ?_ fun s _ => Or.inl ⟨rfl, ?_⟩
  · intro s
    dsimp only
    split <;> rfl
  · exact (lies s).symm ▸ Iff.rfl

theorem keeps_killSpawn (id killerId : UInt32)
    : Keeps categories x (x.KeepsMembership categories (.killSpawn id killerId))
        (x.shell.killSpawn id killerId) := by
  rw [killSpawn]
  by_cases other : id ≠ x.shell.player.id.toUInt32
  · simp only [if_pos other]
    refine Keeps.congr (.withSpawn (fun _ => rfl) fun _ _ => Or.inl ⟨rfl, Iff.rfl⟩) ?_
    exact ⟨fun same _ => same, fun same => same other⟩
  · simp only [if_neg other]
    exact .still rfl rfl fun apart => absurd apart other

theorem keeps_renameSpawn (walk : List Nat) (oldName newName : String)
    : Keeps categories x (x.RenameAgrees categories walk oldName newName)
        (x.shell.renameSpawn walk oldName newName) := by
  rw [renameSpawn, RenameAgrees]
  cases found : x.shell.findSpawnByName walk oldName with
  | some key =>
      refine .withSpawn (fun _ => rfl) fun s _ => ?_
      simp only [sentInFull_name]
      by_cases same : flagChanges s (renamed x.shell.filterMgr newName s) = 0
      · exact Or.inl ⟨if_pos same, by rw [if_pos same]; exact Iff.rfl⟩
      · exact Or.inr ⟨if_neg same, by rw [if_neg same]; exact Iff.rfl⟩
  | none =>
      by_cases own : oldName = x.shell.player.shown.name
      · simp only [if_pos own]
        let after := playerRenamed x.shell.filterMgr newName x.shell.player
        by_cases same : flagChanges x.shell.player.base after.base = 0
        · refine .still rfl ?_ fun _ changed => absurd same changed
          exact (sentInFull_name _ _ _).trans (if_pos same)
        · have agrees
              : x.AgreesPlayer categories after
                ↔ (oldName = x.shell.player.shown.name →
                    flagChanges x.shell.player.base after.base ≠ 0 →
                    x.AgreesPlayer categories after) :=
            ⟨fun agrees _ _ => agrees, fun agrees => agrees own same⟩
          refine Keeps.congr (.playerOnly rfl ?_) agrees
          exact (sentInFull_name _ _ _).trans (if_neg same)
      · simp only [if_neg own]
        exact .idle fun same => absurd same own

theorem keeps_shroudSpawn (spawnID : UInt32) (d : SpawnStruct) (profile : PlayerProfile)
    : Keeps categories x (x.KeepsMembership categories (.shroudSpawn spawnID d profile))
        (x.shell.shroudSpawn spawnID d profile) := by
  simp only [shroudSpawn, KeepsMembership]
  by_cases other : spawnID ≠ x.shell.player.id.toUInt32
  · rw [if_pos other, if_pos other]
    exact keeps_newSpawn d
  · rw [if_neg other, if_neg other]
    refine .playerOnly rfl ?_
    rw [List.flatMap_append, sentInFull_all]
    rfl

theorem keeps_respawnFromHover
    : Keeps categories x
        (x.AgreesElsewhere categories x.shell.player.id.toNat x.shell.hoverCorpse)
        x.shell.respawnFromHover :=
  .sent rfl (sentInFull_added _)

/-- The player with another base that looks the same under the same flags. -/
theorem membership_shown (p : Player) {base : Spawn} (look : base.look = p.base.look)
    (filter : base.filterFlags = p.base.filterFlags)
    (runtime : base.runtimeFilterFlags = p.base.runtimeFilterFlags)
    : { p with base }.shown.membership categories = p.shown.membership categories := by
  have npc : base.look.npc = p.base.look.npc := congrArg SpawnLook.npc look
  simp only [Player.shown]
  split
  · apply membership_of_look
    · simp only [Spawn.look] at npc ⊢
      rw [npc]
    · exact filter
    · exact runtime
  · exact membership_of_look look filter runtime

/-- The player as its own zone entry updates it does not tell which name or id it had. -/
theorem membership_entered (p : Player) (id : UInt16) (name : String) (d : SpawnStruct)
    : (((p.setID id).setName name).update d).shown.membership categories
      = (p.update d).shown.membership categories := by
  obtain ⟨look, filter, runtime⟩ := look_update p.base d
  obtain ⟨later, laterFilter, laterRuntime⟩ := look_update ((p.setID id).setName name).base d
  apply membership_shown (p.update d)
  · exact later.trans look.symm
  · exact laterFilter.trans filter.symm
  · exact laterRuntime.trans runtime.symm

/-- What a snapshot of the spawns has of one that does not have the player's id. -/
theorem find?_snapshot {sh : SpawnShell} {m : Membership} (only : sh.SpawnsOnly)
    (sent : OrderedMap UInt16 Membership) (found : sh.spawns.find? key = some s)
    (coherent
      : ∀ {other t}, sh.spawns.find? other = some t → t.id = s.id →
          t.membership categories = m)
    (apart : s.id ≠ sh.player.id)
    : (Replica.putAll SpawnItem.id (fillMembership categories) sent
        (SpawnItem.inOrder (snapshotItems sh))).find? s.id
      = some m := by
  rcases Replica.find?_putAll SpawnItem.id (fillMembership categories)
      (SpawnItem.inOrder (snapshotItems sh)) sent s.id with ⟨_, others⟩ | ⟨i, member, id, told⟩
  · exact absurd rfl (others _ (only.mem_snapshot.mpr (Or.inl ⟨key, s, found, rfl⟩)))
  · rw [told]
    rcases only.mem_snapshot.mp member with ⟨other, t, there, rfl⟩ | rfl
    · exact congrArg some (coherent there id)
    · exact absurd id.symm apart

/-- Two spawns with one id are in the categories that the client was last sent under it. -/
theorem Current.coherent (current : x.Current categories) {other : Nat} {t : Spawn}
    (found : x.shell.spawns.find? key = some s) (also : x.shell.spawns.find? other = some t)
    (same : t.id = s.id)
    : t.membership categories = s.membership categories := by
  have first := current also
  rw [same, current found] at first
  exact (Option.some.inj first).symm

theorem keeps_playerEntry (only : x.shell.SpawnsOnly) {d : SpawnStruct}
    (self : d.name = x.shell.player.realName)
    : Keeps categories x (x.EntryAgrees categories d) (x.shell.zoneEntry d) := by
  simp only [zoneEntry, EntryAgrees, if_pos self]
  by_cases same : x.shell.player.id = d.spawnId.toUInt16
  · have stays : x.shell.setPlayerID d.spawnId.toUInt16 = (x.shell, []) := if_pos same
    rw [stays]
    have id : (x.shell.player.update d).id = d.spawnId.toUInt16 :=
      (Spawn.update_id _ d).trans same
    refine Keeps.congr (.playerOnly rfl (sentInFull_all _)) ?_
    simp only [AgreesPlayer, id, same, true_or, forall_true_left]
  · obtain ⟨early, takes, sent⟩ := setPlayerID_eq same
    obtain ⟨name, player⟩ := setPlayerID_player same
    have keyed : (x.shell.setPlayerID d.spawnId.toUInt16).1.Keyed := by
      have tracks : Tracks (fun _ => ()) True x.shell _ :=
        tracks_setPlayerID only.keyed d.spawnId.toUInt16
      exact tracks.keyed
    have after := only.of_same keyed takes.same
    generalize entered : x.shell.setPlayerID d.spawnId.toUInt16 = r at *
    have id : (r.1.player.update d).id = d.spawnId.toUInt16 :=
      (Spawn.update_id _ d).trans takes.id
    have looks : (r.1.player.update d).shown.membership categories
        = (x.shell.player.update d).shown.membership categories := by
      rw [player]
      exact membership_entered _ _ _ _
    have stay {key : Nat} {s : Spawn} (found : r.1.spawns.find? key = some s)
        : x.shell.spawns.find? key = some s := by
      rw [takes.spawns, OrderedMap.find?_erase] at found
      split at found
      · exact absurd found (by simp)
      · exact found
    -- what is sent before the snapshot does not count, and the player is sent twice
    have told
        : (r.2 ++ [SpawnSignal.changeItem (.player (r.1.player.update d))
              tSpawnChangedALL]).flatMap SpawnSignal.sentInFull
          = (early.flatMap SpawnSignal.sentInFull ++ SpawnItem.inOrder (snapshotItems r.1)
              ++ [.player r.1.player])
            ++ [.player (r.1.player.update d)] := by
      rw [sent]
      simp only [List.flatMap_append, sentInFull_all]
      rw [← List.singleton_append, List.flatMap_append, sentInFull_all]
      simp only [List.flatMap_singleton, SpawnSignal.sentInFull, List.append_assoc]
    refine Keeps.congr (.player told ?_) ?_
    · intro current key s found apart
      have other : s.id ≠ r.1.player.id := fun same => apart (same.trans (takes.id.trans id.symm))
      rw [Replica.putAll_append, Replica.putAll_append]
      refine (OrderedMap.find?_insert_of_ne _ _ other).trans ?_
      refine find?_snapshot after _ found ?_ other
      exact fun there same => current.coherent (stay found) (stay there) same
    · simp only [andThen, id, looks, takes.spawns]
      constructor
      · intro agrees key t which found
        refine agrees key t ?_
        rw [OrderedMap.find?_erase, if_neg (which.resolve_left same)]
        exact found
      · intro agrees key t found
        rw [OrderedMap.find?_erase] at found
        split at found
        · exact absurd found (by simp)
        · exact agrees key t (Or.inr ‹_›) found

theorem keeps_zoneEntry (only : x.shell.SpawnsOnly) (d : SpawnStruct)
    : Keeps categories x (x.EntryAgrees categories d) (x.shell.zoneEntry d) := by
  by_cases self : d.name = x.shell.player.realName
  · exact keeps_playerEntry only self
  · simp only [zoneEntry, EntryAgrees, if_neg self]
    cases known : x.shell.spawns.find? d.spawnId.toNat with
    | none => exact keeps_newSpawn d
    | some s => exact .unsent rfl known (s.update_id d) rfl

end CategorySession
end Scry
