import Scry.Spawns.SessionMirror

/-! The envelopes a client has received determine the ids of the shell's items. -/

namespace Scry

/-- What an operation must find for a client to keep the ids of the items: the id of what it
removes is no other item's, and one that the player leaves or takes silently is there already.
-/
def SpawnShell.KeepsIds (sh : SpawnShell) : ShellOp → Prop
  | .respawnFromHover => ∃ i ∈ sh.items, i.id = 0
  | .removeSpawn id | .deleteSpawn id =>
      ∀ s, sh.spawns.find? id.toNat = some s → sh.Sole s.id
  | .removeGroundItem dropId =>
      sh.isZoning = false → ∀ t, sh.drops.find? dropId.toNat = some t → sh.Sole t.id
  | .clear => ∀ i ∈ sh.items, i.id = sh.player.id
  | .boxCreated => ∀ i ∈ sh.items, i.id = 0
  | _ => True

/-- Where nothing is looked at, the ids are all that counts. -/
theorem SpawnShell.KeepsIds.follows {sh : SpawnShell} {op : ShellOp} (keeps : sh.KeepsIds op)
    : sh.Follows (fun _ => ()) op := by
  cases op with
  | zoneEntry d => exact fun _ _ _ => rfl
  | setVitals v => exact fun _ => rfl
  | renameSpawn walk oldName newName =>
      simp only [Follows, RenameReaches]
      split
      · exact fun _ _ _ => rfl
      · exact fun _ _ => rfl
  | updateSpawnAppearance id kind parameter => exact fun _ _ _ _ => rfl
  | killSpawn id killerId => exact ⟨fun _ _ _ => rfl, fun _ => rfl⟩
  | corpseLoc id x y z => exact fun _ _ => rfl
  | respawnFromHover =>
      obtain ⟨i, member, zero⟩ := keeps
      exact ⟨i, member, zero, rfl⟩
  | _ => exact keeps

namespace ZoneSession

variable {w : ZoneSession}

/-- What a step must find, if the session is subscribed, for the client to keep the ids. -/
def KeepsIds (w : ZoneSession) (op : ZoneOp) : Prop :=
  w.subscribed = true → w.Finds SpawnShell.KeepsIds op

theorem synced_fresh {α : Type} {g : ShownSpawn → α} (player : Player) (filterMgr : FilterMgr)
    (guildIdToName : UInt16 → UInt16 → String) (createUnknownSpawns : Bool)
    : (fresh (.fresh player filterMgr guildIdToName createUnknownSpawns)).Synced g where
  keyed :=
    { spawnId := fun found => absurd found (by simp [fresh, SpawnShell.fresh])
      listed := ⟨0, OrderedMap.mem_keys_insert.mpr (Or.inl rfl)⟩ }
  mirrored live := absurd live (by simp [fresh])

/-- In every run that keeps the ids, a subscribed client holds exactly those of the shell's
items after every step.
-/
theorem mem_keys_client_iff {player : Player} {filterMgr : FilterMgr}
    {guildIdToName : UInt16 → UInt16 → String} {createUnknownSpawns : Bool}
    (reached
      : Machine.Reaches step KeepsIds
          (fresh (.fresh player filterMgr guildIdToName createUnknownSpawns)) w)
    (live : w.subscribed = true) (id : UInt16)
    : id ∈ w.client.spawns.keys ↔ ∃ item ∈ w.shell.items, item.id = id := by
  have blind : ∀ a b : ShownSpawn, (fun _ => ()) a = (fun _ => ()) b := fun _ _ => rfl
  have synced : w.Synced (fun _ => ()) :=
    reached.invariant (synced_fresh _ _ _ _) fun s op keeps synced =>
      synced.step (fun _ _ _ _ => rfl) op
        (fun live => (keeps live).mono fun _ => SpawnShell.KeepsIds.follows)
        (fun _ => Or.inl blind)
  exact (synced.mirrored live).mem_keys_iff

/-- A door, and a spawn that comes and goes. -/
def doorAndSpawn (spawnId : UInt16) : List ZoneOp :=
  [.subscribe,
    .shell (.newDoorSpawn { doorId := 5, name := "GATE", x := 1, y := 2, z := 3, heading := 0 }),
    .shell
      (.npcMoveUpdate spawnId
        { x := 1, y := 1, z := 0, xVel := 0, yVel := 0, zVel := 0, heading := 0
          deltaHeading := 0, animation := 0 }),
    .shell (.removeSpawn spawnId.toUInt32)]

/-- A spawn with an id of its own leaves the door where it is. -/
theorem mem_keys_client_iff_doorAndSpawn
    : let w := Machine.exec step (fresh newcomer) (doorAndSpawn 6)
      (5 ∈ w.client.spawns.keys ↔ ∃ item ∈ w.shell.items, item.id = 5)
      ∧ (6 ∈ w.client.spawns.keys ↔ ∃ item ∈ w.shell.items, item.id = 6) := by
  have alone
      : ∀ s ∈ (Machine.exec step (fresh newcomer) (doorAndSpawn 6).dropLast).shell.spawns.find? 6,
          (Machine.exec step (fresh newcomer) (doorAndSpawn 6).dropLast).shell.Sole s.id := by
    decide
  have reached : Machine.Reaches step KeepsIds (fresh newcomer)
      (Machine.exec step (fresh newcomer) (doorAndSpawn 6)) :=
    Machine.reaches_exec
      ⟨fun _ => trivial, fun _ => trivial, fun _ => trivial, fun _ => alone, trivial⟩
  exact ⟨mem_keys_client_iff reached (by decide) 5, mem_keys_client_iff reached (by decide) 6⟩

/-- One that has the door's id takes the door away with it. -/
theorem client_loses_door
    : ¬ (∀ w, Machine.Reaches step (fun _ _ => True) (fresh newcomer) w → w.subscribed = true →
        ∀ id, id ∈ w.client.spawns.keys ↔ ∃ item ∈ w.shell.items, item.id = id) := by
  intro determined
  have reached : Machine.Reaches step (fun _ _ => True) (fresh newcomer)
      (Machine.exec step (fresh newcomer) (doorAndSpawn 5)) :=
    Machine.reaches_exec ⟨trivial, trivial, trivial, trivial, trivial⟩
  have same := determined _ reached (by decide) 5
  exact absurd (same.mpr (by decide)) (by decide)

end ZoneSession
end Scry
