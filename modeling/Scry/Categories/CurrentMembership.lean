import Mathlib.Data.String.Basic
import Scry.Categories.SentMembership

/-! The order of a snapshot, and the runs in which a client is always current about the categories
of each spawn.
-/

namespace Scry

namespace SpawnItem

instance : Std.Total Precedes where
  total a b := by
    rcases lt_trichotomy a.id b.id with before | same | after
    · exact Or.inl (Or.inl before)
    · rcases lt_or_ge b.name a.name with lower | higher
      · exact Or.inr (Or.inr ⟨same.symm, not_lt.mpr lower.le⟩)
      · exact Or.inl (Or.inr ⟨same, not_lt.mpr higher⟩)
    · exact Or.inr (Or.inl after)

instance : IsTrans SpawnItem Precedes where
  trans a b c first second := by
    rcases first with before | ⟨same, named⟩
    · rcases second with later | ⟨also, _⟩
      · exact Or.inl (before.trans later)
      · exact Or.inl (also ▸ before)
    · rcases second with later | ⟨also, follows⟩
      · exact Or.inl (same ▸ later)
      · exact Or.inr ⟨same.trans also, not_lt.mpr ((not_lt.mp named).trans (not_lt.mp follows))⟩

/-- An item is put before the first that it may precede, so one that may precede `p`, or has
another id, leaves `p` the last with its id.
-/
theorem orderedInsert_last {p a : SpawnItem} (front : List SpawnItem) {rest : List SpawnItem}
    (before : a.Precedes p ∨ a.id ≠ p.id) (last : ∀ i ∈ rest, i.id ≠ p.id)
    : ∃ front' rest', (front ++ p :: rest).orderedInsert Precedes a = front' ++ p :: rest'
        ∧ ∀ i ∈ rest', i.id ≠ p.id := by
  induction front with
  | nil =>
      rw [List.nil_append, List.orderedInsert]
      split
      · exact ⟨[a], rest, rfl, last⟩
      · rename_i after
        refine ⟨[], rest.orderedInsert Precedes a, rfl, fun i member => ?_⟩
        rcases (List.mem_orderedInsert Precedes).mp member with rfl | listed
        · exact before.resolve_left after
        · exact last i listed
  | cons first front ih =>
      rw [List.cons_append, List.orderedInsert]
      split
      · exact ⟨a :: first :: front, rest, rfl, last⟩
      · obtain ⟨front', rest', inserted, apart⟩ := ih
        exact ⟨first :: front', rest', by rw [inserted]; rfl, apart⟩

/-- Where no other item with its id must come later, the one collected last is the last in
order.
-/
theorem inOrder_last (items : List SpawnItem) (p : SpawnItem)
    (before : ∀ i ∈ items, i.Precedes p ∨ i.id ≠ p.id)
    : ∃ front rest, inOrder (items ++ [p]) = front ++ p :: rest ∧ ∀ i ∈ rest, i.id ≠ p.id := by
  induction items with
  | nil => exact ⟨[], [], rfl, by simp⟩
  | cons first rest ih =>
      obtain ⟨front, last, sorted, apart⟩ := ih fun i member => before i (.tail _ member)
      obtain ⟨front, last, inserted, apart⟩ :=
        orderedInsert_last front (before first List.mem_cons_self) apart
      refine ⟨front, last, ?_, apart⟩
      rw [← inserted, ← sorted]
      rfl

end SpawnItem

namespace SpawnShell

variable {sh : SpawnShell}

/-- No spawn with the player's id has a name after the player's. -/
def PlayerLast (sh : SpawnShell) : Prop :=
  ∀ key s, sh.spawns.find? key = some s → s.id = sh.player.id → ¬ sh.player.shown.name < s.name

theorem SpawnsOnly.items_eq (only : sh.SpawnsOnly)
    : ∃ others,
        sh.items = others ++ [.player sh.player]
        ∧ ∀ i ∈ others,
            (∃ key s, sh.spawns.find? key = some s ∧ i = .spawn s) ∨ i = .player sh.player := by
  obtain ⟨_, listed⟩ := only.keyed.listed
  rcases List.eq_nil_or_concat sh.players.entries with none | ⟨early, last, split⟩
  · exact absurd listed (by simp [OrderedMap.keys, none])
  refine ⟨sh.spawns.entries.map (fun entry => .spawn entry.2)
    ++ early.map (fun _ => .player sh.player), ?_, ?_⟩
  · simp only [items, split, only.drops, only.doors]
    simp [OrderedMap.empty]
  · intro i member
    rcases List.mem_append.mp member with spawn | player
    · obtain ⟨entry, found, rfl⟩ := List.mem_map.mp spawn
      exact Or.inl ⟨entry.1, entry.2, OrderedMap.find?_eq_some_iff.mpr found, rfl⟩
    · obtain ⟨_, _, rfl⟩ := List.mem_map.mp player
      exact Or.inr rfl

/-- Then the player comes last in a snapshot. -/
theorem SpawnsOnly.player_last (only : sh.SpawnsOnly) (later : sh.PlayerLast)
    : ∃ front rest,
        SpawnItem.inOrder (snapshotItems sh) = front ++ .player sh.player :: rest
        ∧ ∀ i ∈ rest, i.id ≠ sh.player.id := by
  obtain ⟨others, items, which⟩ := only.items_eq
  rw [snapshotItems_eq only.keyed.listed, items]
  apply SpawnItem.inOrder_last
  intro i member
  rcases which i member with ⟨key, s, found, rfl⟩ | rfl
  · rcases eq_or_ne s.id sh.player.id with same | apart
    · exact Or.inl (Or.inr ⟨same, later key s found same⟩)
    · exact Or.inr apart
  · exact Or.inl (Or.inr ⟨rfl, lt_irrefl _⟩)

/-- A spawn with the player's id and a name after the player's comes after the player. -/
theorem not_playerLast_of {front rest : List SpawnItem} (only : sh.SpawnsOnly)
    (sorted : SpawnItem.inOrder (snapshotItems sh) = front ++ .player sh.player :: rest)
    (last : ∀ i ∈ rest, i.id ≠ sh.player.id)
    : sh.PlayerLast := by
  intro key s found same after
  have member : SpawnItem.spawn s ∈ front ++ .player sh.player :: rest :=
    sorted ▸ only.mem_snapshot.mpr (Or.inl ⟨key, s, found, rfl⟩)
  have ordered : (front ++ .player sh.player :: rest).Pairwise SpawnItem.Precedes :=
    sorted ▸ List.pairwise_insertionSort SpawnItem.Precedes _
  have before : SpawnItem.spawn s ∈ front := by
    rcases List.mem_append.mp member with early | late
    · exact early
    · rcases List.mem_cons.mp late with absurdly | listed
      · exact SpawnItem.noConfusion absurdly
      · exact absurd same (last _ listed)
  rcases (List.pairwise_append.mp ordered).2.2 _ before _ List.mem_cons_self with lower | ⟨_, named⟩
  · exact absurd (same : s.id = sh.player.id) (ne_of_lt lower)
  · exact named after

end SpawnShell

namespace CategorySession

open SpawnShell

variable {categories : List PlainCategory} {x : CategorySession} {key : Nat} {s : Spawn}

theorem current_subscribed (only : x.shell.SpawnsOnly) (current : x.Current categories)
    : (subscribed categories x.shell).Current categories
      ↔ x.KeepsMembership categories .subscribe := by
  constructor
  · intro after key t found same last
    obtain ⟨front, rest, sorted, apart⟩ := only.player_last last
    have now := after found
    have told
        : (subscribed categories x.shell).sent.find? x.shell.player.id
          = some (x.shell.player.shown.membership categories) := by
      simp only [subscribed, sorted]
      exact Replica.find?_putAll_middle _ _ (SpawnItem.player x.shell.player) apart
    rw [same, told] at now
    exact (Option.some.inj now).symm
  · intro agrees key t found
    have found : x.shell.spawns.find? key = some t := found
    rcases Replica.find?_putAll_last SpawnItem.id (fillMembership categories)
        (SpawnItem.inOrder (snapshotItems x.shell)) .empty t.id with
      ⟨_, others⟩ | ⟨front, i, rest, sorted, id, apart, told⟩
    · exact absurd rfl (others _ (only.mem_snapshot.mpr (Or.inl ⟨key, t, found, rfl⟩)))
    · refine told.trans ?_
      have member : i ∈ SpawnItem.inOrder (snapshotItems x.shell) := by
        rw [sorted]
        exact List.mem_append_right _ List.mem_cons_self
      rcases only.mem_snapshot.mp member with ⟨other, u, there, rfl⟩ | rfl
      · exact congrArg some (current.coherent found there id)
      · have last := not_playerLast_of only sorted fun j listed same =>
          apart j listed (same.trans id)
        exact congrArg some (agrees key t found id.symm last).symm

-----------------------------------------------------------------------------------------
-- Runs
-----------------------------------------------------------------------------------------

theorem current_step (op : IdentityOp) (only : x.shell.SpawnsOnly) (current : x.Current categories)
    : (step categories op x).Current categories ↔ x.KeepsMembership categories op := by
  cases op with
  | newSpawn d => exact keeps_newSpawn d current
  | newSpawnPacket d => exact keeps_newSpawnPacket d current
  | zoneEntry d => exact keeps_zoneEntry only d current
  | upsertSpawn id r => exact keeps_upsertSpawn id r current
  | playerUpdate id m => exact keeps_playerUpdate id m current
  | npcMoveUpdate id m => exact keeps_npcMoveUpdate id m current
  | updateSpawnIdentity id level classVal =>
      exact keeps_updateSpawnIdentity id level classVal current
  | renameSpawn walk oldName newName => exact keeps_renameSpawn walk oldName newName current
  | illusionSpawn id race gender => exact keeps_illusionSpawn id race gender current
  | shroudSpawn spawnID d profile => exact keeps_shroudSpawn spawnID d profile current
  | updateSpawnAppearance id kind parameter =>
      exact keeps_updateSpawnAppearance id kind parameter current
  | killSpawn id killerId => exact keeps_killSpawn id killerId current
  | corpseLoc id a b c => exact keeps_corpseLoc id a b c current
  | respawnFromHover => exact keeps_respawnFromHover current
  | subscribe => exact current_subscribed only current

theorem only_step (op : IdentityOp) (only : x.shell.SpawnsOnly)
    : (step categories op x).shell.SpawnsOnly := by
  have keyed (op : ShellOp) : (op.run x.shell).1.Keyed := by
    have tracks := tracks_run (g := fun _ => ()) only.keyed (fun _ _ _ _ => rfl) op
    exact tracks.keyed
  cases op with
  | newSpawn d => exact only.of_same (keyed (.newSpawn d)) (sameZone_newSpawn d)
  | newSpawnPacket d =>
      refine only.of_same (keyed (.newSpawnPacket d)) ?_
      simp only [step, perform, SpawnShell.newSpawnPacket]
      split
      · exact .refl _
      · exact sameZone_newSpawn d
  | zoneEntry d => exact only.of_same (keyed (.zoneEntry d)) (sameZone_zoneEntry d)
  | upsertSpawn id r =>
      refine only.of_same (keyed (.upsertSpawn id r)) ?_
      simp only [step, perform, SpawnShell.upsertSpawn]
      split
      · exact .refl _
      · split <;> exact ⟨rfl, rfl, rfl⟩
  | playerUpdate id m =>
      refine only.of_same (keyed (.playerUpdate id m)) ?_
      simp only [step, perform, SpawnShell.playerUpdate]
      split
      · exact .refl _
      · exact sameZone_updateSpawn id m
  | npcMoveUpdate id m =>
      refine only.of_same (keyed (.npcMoveUpdate id m)) ?_
      simp only [step, perform, SpawnShell.npcMoveUpdate]
      split
      · exact .refl _
      · exact sameZone_updateSpawn id m
  | updateSpawnIdentity id level classVal =>
      exact only.of_same (keyed (.updateSpawnIdentity id level classVal)) (sameZone_withSpawn _ _)
  | renameSpawn walk oldName newName =>
      refine only.of_same (keyed (.renameSpawn walk oldName newName)) ?_
      simp only [step, perform, SpawnShell.renameSpawn]
      split
      · exact sameZone_withSpawn _ _
      · split
        · exact ⟨rfl, rfl, rfl⟩
        · exact .refl _
  | illusionSpawn id race gender =>
      exact only.of_same (keyed (.illusionSpawn id race gender)) (sameZone_withSpawn _ _)
  | shroudSpawn spawnID d profile =>
      refine only.of_same (keyed (.shroudSpawn spawnID d profile)) ?_
      simp only [step, perform, SpawnShell.shroudSpawn]
      split
      · exact sameZone_newSpawn d
      · exact ⟨rfl, rfl, rfl⟩
  | updateSpawnAppearance id kind parameter =>
      exact only.of_same (keyed (.updateSpawnAppearance id kind parameter))
        (sameZone_withSpawn _ _)
  | killSpawn id killerId =>
      refine only.of_same (keyed (.killSpawn id killerId)) ?_
      simp only [step, perform, SpawnShell.killSpawn]
      split
      · exact sameZone_withSpawn _ _
      · exact ⟨rfl, rfl, rfl⟩
  | corpseLoc id a b c =>
      exact only.of_same (keyed (.corpseLoc id a b c)) (sameZone_withSpawn _ _)
  | respawnFromHover => exact only.of_same (keyed .respawnFromHover) ⟨rfl, rfl, rfl⟩
  | subscribe => exact only

theorem only_fresh (player : Player) (filterMgr : FilterMgr)
    (guildIdToName : UInt16 → UInt16 → String) (createUnknownSpawns : Bool)
    : (SpawnShell.fresh player filterMgr guildIdToName createUnknownSpawns).SpawnsOnly where
  keyed :=
    { spawnId := fun found => absurd found (by simp [SpawnShell.fresh])
      listed := ⟨0, OrderedMap.mem_keys_insert.mpr (Or.inl rfl)⟩ }
  drops := rfl
  doors := rfl

/-- A client stays current in a run exactly where each operation finds what it must: where it
sends a spawn or the player in full, that the other spawns with the id are in the same
categories, and where it changes a spawn without sending it in full, that this changes no
category and no flag.
-/
theorem membership_current_iff (categories : List PlainCategory) (player : Player)
    (filterMgr : FilterMgr) (guildIdToName : UInt16 → UInt16 → String)
    (createUnknownSpawns : Bool) (ops : List IdentityOp)
    : let start := subscribed categories (.fresh player filterMgr guildIdToName createUnknownSpawns)
      Machine.Always (step categories) (Current categories) start ops
        ↔ Machine.Permits (step categories) (KeepsMembership categories) start ops := by
  intro start
  have only : start.shell.SpawnsOnly := only_fresh _ _ _ _
  have initial : start.Current categories := fun found => absurd found (by
    simp [start, subscribed, SpawnShell.fresh])
  exact Machine.always_iff_permits only initial (fun _ op only => only_step op only)
    fun _ op only current => current_step op only current

/-- A category of the spawns from level 10 on. -/
def fromLevelTen : PlainCategory where
  isFiltered _ _ _ level := decide (10 ≤ level)
  looksOnlyAt _ _ _ _ _ _ := rfl

/-- A spawn comes in at level 1 and rises to level 50. -/
def risesInLevel : List IdentityOp :=
  [.upsertSpawn 6
      { name := "a_rat00", lastName := "", x := 0, y := 0, z := 0, heading := 0, level := 1
        curHpPct := 50, maxHpPct := 100, race := 36, classVal := 1, deity := 0, guildID := 0
        guildServerID := 0, npc := 1, classMask := 0 },
    .updateSpawnAppearance 6 1 50]

theorem Current.told (current : x.Current categories) (key : Nat)
    : (x.shell.spawns.find? key).all fun s =>
        x.sent.find? s.id == some (s.membership categories) := by
  cases found : x.shell.spawns.find? key with
  | none => rfl
  | some s => exact beq_iff_eq.mpr (current found)

/-- The client is not told that the spawn has come into the category. -/
theorem membership_goes_stale
    : ¬ ∀ categories player filterMgr guildIdToName createUnknownSpawns ops,
        (Machine.exec (step categories)
          (subscribed categories
            (.fresh player filterMgr guildIdToName createUnknownSpawns)) ops).Current
          categories := by
  intro current
  let sh := ZoneSession.newcomer
  have told := Current.told
    (current [fromLevelTen] sh.player sh.filterMgr sh.guildIdToName true risesInLevel) 6
  exact absurd told (by decide +kernel)

end CategorySession
end Scry
