import Scry.Spawns.Mirror

/-! What each operation of the shell must find for its signals to keep a client a mirror. -/

namespace Scry

-----------------------------------------------------------------------------------------
-- Ids
-----------------------------------------------------------------------------------------

@[simp] theorem Spawn.update_id (s : Spawn) (d : SpawnStruct) : (s.update d).id = s.id := by
  simp only [Spawn.update]
  split <;> rfl

@[simp] theorem Spawn.ofStruct_id (d : SpawnStruct)
    : (Spawn.ofStruct d).id = UInt16.ofNat d.spawnId.toNat := by
  rw [Spawn.ofStruct, Spawn.update_id]
  rfl

@[simp] theorem Spawn.updateFlags_id (s : Spawn) (m : FilterMgr) : (s.updateFlags m).id = s.id :=
  rfl

namespace SpawnShell

variable {sh before after : SpawnShell} {key : Nat} {s t : Spawn}

/-- The items but for the player, which may be listed more than once. -/
def others (sh : SpawnShell) : List SpawnItem :=
  sh.spawns.entries.map (fun entry => .spawn entry.2)
    ++ sh.drops.entries.map (fun entry => .drop entry.2)
    ++ sh.doors.entries.map (fun entry => .door entry.2)

/-- No two items have one id. -/
def NoShared (sh : SpawnShell) : Prop :=
  (sh.others.map SpawnItem.id ++ [sh.player.id]).Nodup

instance (sh : SpawnShell) : Decidable sh.NoShared := inferInstanceAs (Decidable (List.Nodup _))

/-- Every spawn has the id it is kept under, cut to 16 bits, and the player is listed. -/
structure Keyed (sh : SpawnShell) : Prop where
  spawnId : ∀ {key s}, sh.spawns.find? key = some s → s.id = UInt16.ofNat key
  listed : ∃ key, key ∈ sh.players.keys

theorem Keyed.congr (keyed : before.Keyed) (spawns : after.spawns = before.spawns)
    (players : after.players = before.players)
    : after.Keyed where
  spawnId found := keyed.spawnId (spawns ▸ found)
  listed := players ▸ keyed.listed

/-- Shells with the same items. -/
structure SameItems (before after : SpawnShell) : Prop where
  spawns : after.spawns = before.spawns
  drops : after.drops = before.drops
  doors : after.doors = before.doors
  players : after.players = before.players
  player : after.player = before.player

theorem SameItems.refl (sh : SpawnShell) : SameItems sh sh := ⟨rfl, rfl, rfl, rfl, rfl⟩

theorem SameItems.keyed_setSpawn (same : SameItems before after) (keyed : before.Keyed)
    (id : s.id = UInt16.ofNat key)
    : (after.setSpawn key s).Keyed where
  spawnId {other t} found := by
    rw [setSpawn, same.spawns] at found
    by_cases this : other = key
    · rw [this, OrderedMap.find?_insert_self] at found
      obtain rfl := Option.some.inj found
      rw [this, id]
    · rw [OrderedMap.find?_insert_of_ne _ _ this] at found
      exact keyed.spawnId found
  listed := same.players.symm ▸ keyed.listed

/-- A spawn put under a key whose spawn, if there is one, has the same id. -/
theorem SameItems.puts (same : SameItems before after)
    (id : ∀ {old}, before.spawns.find? key = some old → old.id = s.id)
    : Puts before (after.setSpawn key s) (.spawn s) where
  is := .spawn (OrderedMap.find?_insert_self _ _ _)
  others j holds := by
    cases holds with
    | @spawn other t found =>
        by_cases this : other = key
        · rw [setSpawn, this, OrderedMap.find?_insert_self] at found
          exact Or.inl (congrArg _ (Option.some.inj found).symm)
        · rw [setSpawn, same.spawns, OrderedMap.find?_insert_of_ne _ _ this] at found
          exact Or.inr (.spawn found)
    | drop found => exact Or.inr (.drop (same.drops ▸ found))
    | door found => exact Or.inr (.door (same.doors ▸ found))
    | player listed =>
        rw [setSpawn, same.player]
        exact Or.inr (.player (same.players ▸ listed))
  kept j holds := by
    cases holds with
    | @spawn other t found =>
        by_cases this : other = key
        · exact Or.inl (id (this ▸ found))
        · refine Or.inr (.spawn ((OrderedMap.find?_insert_of_ne _ _ this).trans ?_))
          exact same.spawns.symm ▸ found
    | drop found => exact Or.inr (.drop (same.drops.symm ▸ found))
    | door found => exact Or.inr (.door (same.doors.symm ▸ found))
    | player listed =>
        rw [← same.player]
        exact Or.inr (.player (same.players.symm ▸ listed))

/-- A known spawn changed. -/
theorem replacesSpawn (known : before.spawns.find? key = some t) (id : s.id = t.id)
    : Replaces before (before.setSpawn key s) (.spawn t) (.spawn s) where
  toPuts := (SameItems.refl before).puts fun found => by
    obtain rfl := Option.some.inj (known.symm.trans found)
    exact id.symm
  id := id
  was := .spawn known

theorem putsDrop (sh : SpawnShell) {key : Nat} {t : Thing}
    (id : ∀ old, sh.drops.find? key = some old → old.id = t.id)
    : Puts sh { sh with drops := sh.drops.insert key t } (.drop t) where
  is := .drop (OrderedMap.find?_insert_self _ _ _)
  others j holds := by
    cases holds with
    | spawn found => exact Or.inr (.spawn found)
    | @drop other t found =>
        by_cases same : other = key
        · rw [same, OrderedMap.find?_insert_self] at found
          exact Or.inl (congrArg _ (Option.some.inj found).symm)
        · rw [OrderedMap.find?_insert_of_ne _ _ same] at found
          exact Or.inr (.drop found)
    | door found => exact Or.inr (.door found)
    | player listed => exact Or.inr (.player listed)
  kept j holds := by
    cases holds with
    | spawn found => exact Or.inr (.spawn found)
    | @drop other t found =>
        by_cases same : other = key
        · exact Or.inl (id _ (same ▸ found))
        · exact Or.inr (.drop ((OrderedMap.find?_insert_of_ne _ _ same).trans found))
    | door found => exact Or.inr (.door found)
    | player listed => exact Or.inr (.player listed)

theorem putsDoor (sh : SpawnShell) {key : Nat} {t : Thing}
    (id : ∀ old, sh.doors.find? key = some old → old.id = t.id)
    : Puts sh { sh with doors := sh.doors.insert key t } (.door t) where
  is := .door (OrderedMap.find?_insert_self _ _ _)
  others j holds := by
    cases holds with
    | spawn found => exact Or.inr (.spawn found)
    | drop found => exact Or.inr (.drop found)
    | @door other t found =>
        by_cases same : other = key
        · rw [same, OrderedMap.find?_insert_self] at found
          exact Or.inl (congrArg _ (Option.some.inj found).symm)
        · rw [OrderedMap.find?_insert_of_ne _ _ same] at found
          exact Or.inr (.door found)
    | player listed => exact Or.inr (.player listed)
  kept j holds := by
    cases holds with
    | spawn found => exact Or.inr (.spawn found)
    | drop found => exact Or.inr (.drop found)
    | @door other t found =>
        by_cases same : other = key
        · exact Or.inl (id _ (same ▸ found))
        · exact Or.inr (.door ((OrderedMap.find?_insert_of_ne _ _ same).trans found))
    | player listed => exact Or.inr (.player listed)

/-- The player changed. -/
theorem replacesPlayer (sh : SpawnShell) {p : Player} (listed : ∃ key, key ∈ sh.players.keys)
    (id : p.base.id = sh.player.base.id)
    : Replaces sh { sh with player := p } (.player sh.player) (.player p) where
  is := .player listed.choose_spec
  others j holds := by
    cases holds with
    | spawn found => exact Or.inr (.spawn found)
    | drop found => exact Or.inr (.drop found)
    | door found => exact Or.inr (.door found)
    | player listed => exact Or.inl rfl
  kept j holds := by
    cases holds with
    | spawn found => exact Or.inr (.spawn found)
    | drop found => exact Or.inr (.drop found)
    | door found => exact Or.inr (.door found)
    | player listed => exact Or.inl id.symm
  id := id
  was := .player listed.choose_spec

-----------------------------------------------------------------------------------------
-- Signals that keep the mirror
-----------------------------------------------------------------------------------------

variable {α : Type} {g : ShownSpawn → α} {cond : Prop} {new : SpawnItem}
variable {signals : List SpawnSignal}

/-- Nothing is looked at, or every item has an id of its own. -/
def Separable (g : ShownSpawn → α) (sh : SpawnShell) : Prop :=
  (∀ a b, g a = g b) ∨ sh.NoShared

theorem items_eq (sh : SpawnShell)
    : sh.items = sh.others ++ sh.players.entries.map (fun _ => .player sh.player) := rfl

theorem mem_items_iff {i : SpawnItem}
    : i ∈ sh.items ↔ i ∈ sh.others ∨ (i = .player sh.player ∧ ∃ key, key ∈ sh.players.keys) := by
  simp only [items_eq, List.mem_append, List.mem_map, OrderedMap.keys, Prod.exists]
  refine or_congr Iff.rfl ?_
  constructor
  · intro h
    obtain ⟨key, _, member, rfl⟩ := h
    exact ⟨rfl, key, key, _, member, rfl⟩
  · intro h
    obtain ⟨rfl, _, key, _, member, _⟩ := h
    exact ⟨key, _, member, rfl⟩

/-- With an id for each item, an id belongs to one of them. -/
theorem NoShared.inj (single : sh.NoShared) {i j : SpawnItem} (hi : i ∈ sh.items)
    (hj : j ∈ sh.items) (same : i.id = j.id)
    : i = j := by
  obtain ⟨nodup, _, apart⟩ := List.nodup_append.mp single
  have fromPlayer {k : SpawnItem} (other : k ∈ sh.others) : k.id ≠ sh.player.id :=
    apart _ (List.mem_map.mpr ⟨k, other, rfl⟩) _ List.mem_cons_self
  rcases mem_items_iff.mp hi with left | ⟨rfl, _⟩
  · rcases mem_items_iff.mp hj with right | ⟨rfl, _⟩
    · exact List.inj_on_of_nodup_map nodup left right same
    · exact absurd same (fromPlayer left)
  · rcases mem_items_iff.mp hj with right | ⟨rfl, _⟩
    · exact absurd same.symm (fromPlayer right)
    · rfl

theorem Separable.coherent (separable : sh.Separable g) : sh.Coherent g := by
  intro i hi j hj same
  rcases separable with blind | single
  · exact blind _ _
  · rw [single.inj hi hj same]

/-- An operation's result keeps the ids and, under a condition, a client that has received its
envelopes is still a mirror.
-/
structure Tracks (g : ShownSpawn → α) (cond : Prop) (sh : SpawnShell)
    (result : SpawnShell × List SpawnSignal)
    : Prop where
  keyed : result.1.Keyed
  mirrored : cond → ∀ zoneShort c, result.1.Separable g → sh.Mirrored g c →
    result.1.Mirrored g (c.receiveAll (result.2.flatMap (·.envelopes zoneShort)))

/-- Nothing happened. -/
theorem Tracks.idle (keyed : sh.Keyed) : Tracks g cond sh (sh, []) where
  keyed := keyed
  mirrored _ _ _ _ mirrored := mirrored

theorem SameItems.items_eq (same : SameItems before after) : after.items = before.items := by
  simp only [items, same.spawns, same.drops, same.doors, same.players, same.player]

/-- What counts of a shell is its items. -/
theorem Tracks.of_same {result : SpawnShell × List SpawnSignal} (same : SameItems before after)
    (tracks : Tracks g cond after result)
    : Tracks g cond before result where
  keyed := tracks.keyed
  mirrored held zoneShort c separable mirrored := by
    refine tracks.mirrored held zoneShort c separable ?_
    simpa only [Mirrored, same.items_eq] using mirrored

/-- One item put into the shell and sent in full. -/
theorem Tracks.put (keyed : after.Keyed) (puts : cond → Puts before after new)
    (sent
      : ∀ zoneShort,
          signals.flatMap (·.envelopes zoneShort) = [.spawnAdded (fillSpawn new)])
    : Tracks g cond before (after, signals) where
  keyed := keyed
  mirrored held zoneShort c separable mirrored := by
    rw [sent]
    exact mirrored.sentInFull (puts held) separable.coherent

/-- One item revised. -/
theorem Tracks.revise {old : SpawnItem} (keyed : after.Keyed) (patchable : Patchable g)
    (replaces : Replaces before after old new) (revision : cond → Revision g old new signals)
    : Tracks g cond before (after, signals) where
  keyed := keyed
  mirrored held zoneShort _ separable mirrored :=
    mirrored.revised replaces separable.coherent patchable (revision held) zoneShort

/-- A known spawn changed. -/
theorem Tracks.reviseSpawn (keyed : sh.Keyed) (patchable : Patchable g)
    (known : sh.spawns.find? key = some t) (id : s.id = t.id)
    (revision : cond → Revision g (.spawn t) (.spawn s) signals)
    : Tracks g cond sh (sh.setSpawn key s, signals) :=
  .revise ((SameItems.refl sh).keyed_setSpawn keyed (id.trans (keyed.spawnId known))) patchable
    (replacesSpawn known id) revision

/-- A change to a known spawn, through its pointer. -/
theorem Tracks.withSpawn (keyed : sh.Keyed) (patchable : Patchable g)
    {f : Spawn → Spawn × List SpawnSignal}
    (handled
      : ∀ s, sh.spawns.find? key = some s →
          (f s).1.id = s.id ∧ (cond → Revision g (.spawn s) (.spawn (f s).1) (f s).2))
    : Tracks g cond sh (sh.withSpawn key f) := by
  simp only [SpawnShell.withSpawn]
  cases known : sh.spawns.find? key with
  | none => exact .idle keyed
  | some s =>
      obtain ⟨id, revision⟩ := handled s known
      exact .reviseSpawn keyed patchable known id revision

/-- A spawn put under a key of its id and sent in full. -/
theorem Tracks.setSpawn (keyed : before.Keyed) (same : SameItems before after)
    (id : s.id = UInt16.ofNat key)
    (sent
      : ∀ zoneShort,
          signals.flatMap (·.envelopes zoneShort) = [.spawnAdded (fillSpawn (.spawn s))])
    : Tracks g cond before (after.setSpawn key s, signals) :=
  .put (same.keyed_setSpawn keyed id)
    (fun _ => same.puts fun found => (keyed.spawnId found).trans id.symm) sent

-----------------------------------------------------------------------------------------
-- Removal
-----------------------------------------------------------------------------------------

/-- The id occurs once among those of the items. -/
def Sole (sh : SpawnShell) (id : UInt16) : Prop := (sh.items.map SpawnItem.id).count id = 1

instance (sh : SpawnShell) (id : UInt16) : Decidable (sh.Sole id) :=
  inferInstanceAs (Decidable (_ = _))

/-- An item taken out that has its id to itself. -/
theorem Mirrored.taken {old : SpawnItem} {c : SpawnClient} (mirrored : before.Mirrored g c)
    (perm : before.items.Perm (old :: after.items)) (sole : before.Sole old.id)
    : after.Mirrored g (c.receive (.spawnRemoved old.id)) := by
  have unused : ∀ j ∈ after.items, j.id ≠ old.id := by
    have counted := (perm.map SpawnItem.id).count_eq old.id
    rw [sole, List.map_cons, List.count_cons_self] at counted
    have absent : old.id ∉ after.items.map SpawnItem.id := List.count_eq_zero.mp (by omega)
    exact fun j member same => absent (List.mem_map.mpr ⟨j, member, same⟩)
  refine Replica.Mirrors.drop mirrored unused ?_ ?_
  · intro j member
    exact Replica.shown_of_mem (perm.mem_iff.mpr (List.mem_cons_of_mem _ member))
  · intro i member other
    rcases List.mem_cons.mp (perm.mem_iff.mp member) with rfl | stays
    · exact absurd rfl other
    · exact ⟨i, stays, rfl⟩

theorem items_perm_spawn (found : sh.spawns.find? key = some s)
    : sh.items.Perm (.spawn s :: { sh with spawns := sh.spawns.erase key }.items) :=
  ((((OrderedMap.entries_perm_erase found).map _).append_right _).append_right _).append_right _

theorem items_perm_drop {t : Thing} (found : sh.drops.find? key = some t)
    : sh.items.Perm (.drop t :: { sh with drops := sh.drops.erase key }.items) := by
  have taken := (OrderedMap.entries_perm_erase found).map
    (fun entry : Nat × Thing => SpawnItem.drop entry.2)
  exact (((taken.append_left _).append_right _).append_right _).trans
    ((List.perm_middle.append_right _).append_right _)

/-- A spawn removed. -/
theorem Tracks.deleteSpawn (keyed : sh.Keyed)
    (sole : cond → ∀ s, sh.spawns.find? key = some s → sh.Sole s.id)
    : Tracks g cond sh (sh.deleteItem .tSpawn key) := by
  simp only [deleteItem]
  cases known : sh.spawns.find? key with
  | none => exact .idle keyed
  | some s =>
      constructor
      · constructor
        · intro other t found
          rcases ne_or_eq other key with apart | rfl
          · exact keyed.spawnId ((OrderedMap.find?_erase_of_ne _ apart).symm.trans found)
          · exact absurd found (by simp)
        · exact keyed.listed
      · intro held _ _ _ mirrored
        exact mirrored.taken (items_perm_spawn known) (sole held s known)

/-- A drop removed. -/
theorem Tracks.deleteDrop (keyed : sh.Keyed)
    (sole : cond → ∀ t, sh.drops.find? key = some t → sh.Sole t.id)
    : Tracks g cond sh (sh.deleteItem .tDrop key) := by
  simp only [deleteItem]
  cases known : sh.drops.find? key with
  | none => exact .idle keyed
  | some t =>
      refine ⟨keyed.congr rfl rfl, ?_⟩
      intro held _ _ _ mirrored
      exact mirrored.taken (items_perm_drop known) (sole held t known)

-----------------------------------------------------------------------------------------
-- Whole maps
-----------------------------------------------------------------------------------------

/-- Every item replaced by one that looks the same. -/
structure Relabels (before after : SpawnShell) (onSpawn : Spawn → Spawn) (onThing : Thing → Thing)
    : Prop where
  spawns : ∀ key, after.spawns.find? key = (before.spawns.find? key).map onSpawn
  drops : ∀ key, after.drops.find? key = (before.drops.find? key).map onThing
  doors : ∀ key, after.doors.find? key = (before.doors.find? key).map onThing
  players : after.players = before.players
  playerId : after.player.base.id = before.player.base.id
  spawnId : ∀ s, (onSpawn s).id = s.id
  thingId : ∀ t, (onThing t).id = t.id
  player : (SpawnItem.player after.player).shown = (SpawnItem.player before.player).shown
  spawn : ∀ s, (SpawnItem.spawn (onSpawn s)).shown = (SpawnItem.spawn s).shown
  drop : ∀ t, (SpawnItem.drop (onThing t)).shown = (SpawnItem.drop t).shown
  door : ∀ t, (SpawnItem.door (onThing t)).shown = (SpawnItem.door t).shown

variable {onSpawn : Spawn → Spawn} {onThing : Thing → Thing} {i j : SpawnItem}

theorem Relabels.keyed (relabels : Relabels before after onSpawn onThing) (keyed : before.Keyed)
    : after.Keyed where
  spawnId found := by
    obtain ⟨s, old, rfl⟩ := Option.map_eq_some_iff.mp ((relabels.spawns _).symm.trans found)
    exact (relabels.spawnId s).trans (keyed.spawnId old)
  listed := relabels.players ▸ keyed.listed

theorem Relabels.was (relabels : Relabels before after onSpawn onThing) (holds : after.Holds j)
    : ∃ i, before.Holds i ∧ i.id = j.id ∧ i.shown = j.shown := by
  cases holds with
  | spawn found =>
      obtain ⟨s, old, rfl⟩ := Option.map_eq_some_iff.mp ((relabels.spawns _).symm.trans found)
      exact ⟨_, .spawn old, (relabels.spawnId s).symm, (relabels.spawn s).symm⟩
  | drop found =>
      obtain ⟨t, old, rfl⟩ := Option.map_eq_some_iff.mp ((relabels.drops _).symm.trans found)
      exact ⟨_, .drop old, (relabels.thingId t).symm, (relabels.drop t).symm⟩
  | door found =>
      obtain ⟨t, old, rfl⟩ := Option.map_eq_some_iff.mp ((relabels.doors _).symm.trans found)
      exact ⟨_, .door old, (relabels.thingId t).symm, (relabels.door t).symm⟩
  | player listed =>
      exact ⟨_, .player (relabels.players ▸ listed), relabels.playerId.symm,
        relabels.player.symm⟩

theorem Relabels.stays (relabels : Relabels before after onSpawn onThing) (holds : before.Holds i)
    : ∃ j, after.Holds j ∧ j.id = i.id := by
  cases holds with
  | @spawn key s found =>
      exact ⟨.spawn (onSpawn s), .spawn ((relabels.spawns key).trans (by rw [found]; rfl)),
        relabels.spawnId s⟩
  | @drop key t found =>
      exact ⟨.drop (onThing t), .drop ((relabels.drops key).trans (by rw [found]; rfl)),
        relabels.thingId t⟩
  | @door key t found =>
      exact ⟨.door (onThing t), .door ((relabels.doors key).trans (by rw [found]; rfl)),
        relabels.thingId t⟩
  | player listed =>
      exact ⟨_, .player (relabels.players.symm ▸ listed), relabels.playerId⟩

/-- Spawns received one after another are put one after another. -/
theorem receiveAll_added (c : SpawnClient) (sent : List SpawnItem)
    : c.receiveAll (sent.map fun i => .spawnAdded (fillSpawn i))
      = { c with spawns := Replica.putAll SpawnItem.id fillSpawn c.spawns sent } := by
  induction sent generalizing c with
  | nil => rfl
  | cons first rest ih =>
      have later := ih (c.receive (.spawnAdded (fillSpawn first)))
      simp only [SpawnClient.receiveAll, SpawnClient.receive, fillSpawn_id, List.map_cons,
        List.foldl_cons] at later ⊢
      exact later

/-- Items relabelled, some of which are sent in full. -/
theorem Tracks.relabel (keyed : before.Keyed) (relabels : Relabels before after onSpawn onThing)
    {sent : List SpawnItem} (members : ∀ i ∈ sent, after.Holds i)
    (full
      : ∀ zoneShort,
          signals.flatMap (·.envelopes zoneShort)
          = sent.map fun i => .spawnAdded (fillSpawn i))
    : Tracks g cond before (after, signals) where
  keyed := relabels.keyed keyed
  mirrored _ zoneShort c separable mirrored := by
    rw [full, receiveAll_added]
    refine Replica.Mirrors.putAll mirrored (fun i member => mem_items.mpr (members i member))
      separable.coherent ?_ ?_
    · intro j member _
      obtain ⟨i, was, sameId, sameLook⟩ := relabels.was (mem_items.mp member)
      exact ⟨i, mem_items.mpr was, sameId, congrArg g sameLook⟩
    · intro i member
      obtain ⟨j, holds, sameId⟩ := relabels.stays (mem_items.mp member)
      exact ⟨j, mem_items.mpr holds, sameId⟩

end SpawnShell
end Scry
