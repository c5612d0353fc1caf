import Scry.Spawns.GroupSession
import Scry.Spawns.Tracking

/-! The group panel of a client against the roster. An operation that signals before it changes
the roster leaves the panel behind, and so does what the spawn shell tells of, which changes the
roster without a signal.
-/

namespace Scry

open FirstMatch

namespace GroupWorld

-----------------------------------------------------------------------------------------
-- What is seen of the roster
-----------------------------------------------------------------------------------------

/-- A slot's name, whether its member is in the zone, and the id of the member's spawn. -/
abbrev SeenMember : Type := String × Bool × Option UInt16

/-- What is seen of a slot. -/
def seenMember (sh : SpawnShell) (m : GroupMember) : SeenMember :=
  (m.name, m.inZone, (m.target sh).map (·.id))

/-- What is seen of the roster, slot by slot. -/
def seen (w : GroupWorld) : List SeenMember := w.group.members.map (seenMember w.shell)

/-- There are as many slots as the array has, one that is not in use has no pointer, and a pointer
to a spawn of the shell has one there.
-/
structure Tidy (w : GroupWorld) : Prop where
  peers : w.group.members.length = maxGroupPeers
  unnamed : ∀ m ∈ w.group.members, m.isNamed = false → m.spawn = none
  rooted
    : ∀ m ∈ w.group.members, ∀ key, m.spawn = some (.spawn key) →
        (w.shell.spawns.find? key).isSome = true

variable {w : GroupWorld} {sh : SpawnShell} {g : GroupMgr} {old new : GroupMember}
  {front back : List GroupMember}

/-- One slot has changed. -/
theorem seen_replace_iff (new : GroupMember) (whole : w.group.members = front ++ old :: back)
    (others : ∀ m ∈ front ++ back, seenMember sh m = seenMember w.shell m)
    : (front ++ new :: back).map (seenMember sh) = w.seen
      ↔ seenMember sh new = seenMember w.shell old := by
  have before : front.map (seenMember sh) = front.map (seenMember w.shell) :=
    List.map_congr_left fun m member => others m (List.mem_append_left _ member)
  have after : back.map (seenMember sh) = back.map (seenMember w.shell) :=
    List.map_congr_left fun m member => others m (List.mem_append_right _ member)
  rw [seen, whole, List.map_append, List.map_append, List.map_cons, List.map_cons, before, after,
    List.append_right_inj, List.cons.injEq]
  exact and_iff_left rfl

/-- What is seen of a slot depends on the spawn that its pointer leads to only. -/
theorem seenMember_of_target {m : GroupMember}
    (target : (m.target sh).map (·.id) = (m.target w.shell).map (·.id))
    : seenMember sh m = seenMember w.shell m := by
  rw [seenMember, seenMember, target]

/-- A pointer leads to the same where the shell has the same player and spawn. -/
theorem target_id_of_shell {m : GroupMember} (player : sh.player.id = w.shell.player.id)
    (spawns
      : ∀ key, m.spawn = some (.spawn key) →
          (sh.spawns.find? key).map (·.id) = (w.shell.spawns.find? key).map (·.id))
    : (m.target sh).map (·.id) = (m.target w.shell).map (·.id) := by
  rw [GroupMember.target, GroupMember.target]
  cases points : m.spawn with
  | none => rfl
  | some ptr =>
      cases ptr with
      | spawn key => exact spawns key points
      | player =>
          change some sh.player.shown.id = some w.shell.player.shown.id
          rw [Player.shown_id, Player.shown_id]
          exact congrArg some player
      | freed => rfl

-----------------------------------------------------------------------------------------
-- Tidiness
-----------------------------------------------------------------------------------------

theorem start_tidy (sh : SpawnShell) : (start sh).Tidy where
  peers := (start_books sh).peers
  unnamed := (start_books sh).unnamed
  rooted m member key points := by
    rw [List.eq_of_mem_replicate member] at points
    exact absurd points (by simp [GroupMember.empty])

/-- The slots stay tidy while the shell keeps its spawns. -/
theorem Tidy.of_shell (tidy : w.Tidy)
    (kept
      : ∀ key, (w.shell.spawns.find? key).isSome = true →
          (sh.spawns.find? key).isSome = true)
    : Tidy ⟨sh, w.group⟩ :=
  ⟨tidy.peers, tidy.unnamed, fun m member key points => kept key (tidy.rooted m member key points)⟩

/-- The slots stay tidy when one of them changes. -/
theorem Tidy.replace (tidy : w.Tidy) (whole : w.group.members = front ++ old :: back)
    (members : g.members = front ++ new :: back)
    (unnamed : new.isNamed = false → new.spawn = none)
    (rooted
      : ∀ key, new.spawn = some (.spawn key) → (w.shell.spawns.find? key).isSome = true)
    : Tidy ⟨w.shell, g⟩ := by
  have kept {m : GroupMember} (member : m ∈ front ++ back) : m ∈ w.group.members := by
    rw [whole]
    simp only [List.mem_append, List.mem_cons] at member ⊢
    tauto
  have split {m : GroupMember} (member : m ∈ g.members) : m = new ∨ m ∈ w.group.members := by
    rw [members, List.mem_append, List.mem_cons] at member
    rcases member with member | same | member
    · exact Or.inr (kept (List.mem_append_left _ member))
    · exact Or.inl same
    · exact Or.inr (kept (List.mem_append_right _ member))
  refine ⟨?_, fun m member isUnnamed => ?_, fun m member key points => ?_⟩
  · have peers := tidy.peers
    rw [whole] at peers
    simpa [members] using peers
  · rcases split member with rfl | member
    · exact unnamed isUnnamed
    · exact tidy.unnamed m member isUnnamed
  · rcases split member with rfl | member
    · exact rooted key points
    · exact tidy.rooted m member key points

theorem find_rooted {walk : List Nat} {name : String} {key : Nat}
    (found : sh.findPlayerByDisplayName walk name = some (.spawn key))
    : (sh.spawns.find? key).isSome = true := by
  obtain ⟨s, there, -⟩ := find_live found
  exact Option.isSome_iff_exists.mpr ⟨s, there⟩

theorem Tidy.place (tidy : w.Tidy) (walk : List Nat) {name : String} (named : name ≠ "")
    : Tidy ⟨w.shell, w.group.place w.shell walk name⟩ := by
  rw [GroupMgr.place]
  cases found : updateFirst (fun m : GroupMember => !m.isNamed)
      (fun _ => ⟨name, w.shell.findPlayerByDisplayName walk name⟩) w.group.members with
  | none => exact tidy
  | some slots =>
      obtain ⟨front, back, whole, changed, -, -⟩ := updateFirst_split found
      refine tidy.replace whole changed (fun unnamed => ?_) fun key points => find_rooted points
      simp [GroupMember.isNamed, named] at unnamed

theorem Tidy.addGroupMember (tidy : w.Tidy) (walk : List Nat) (name : String)
    : Tidy ⟨w.shell, w.group.addGroupMember w.shell walk name⟩ := by
  rw [GroupMgr.addGroupMember]
  split_ifs with empty self tracked
  · exact tidy
  · exact tidy
  · exact tidy
  · exact tidy.place walk empty

theorem Tidy.dropAbsent (tidy : w.Tidy) (incoming : List String) (i : Nat)
    : Tidy ⟨w.shell, w.group.dropAbsent incoming i⟩ := by
  rw [GroupMgr.dropAbsent]
  cases here : w.group.members[i]? with
  | none => exact tidy
  | some m =>
      obtain ⟨inside, isHere⟩ := List.getElem?_eq_some_iff.mp here
      have cut (n : GroupMember) : w.group.members.set i n
          = w.group.members.take i ++ n :: w.group.members.drop (i + 1) := by
        rw [List.set_eq_take_append_cons_drop, if_pos inside]
      have whole := cut m
      rw [← isHere, List.set_getElem_self] at whole
      dsimp only
      by_cases absent : (m.isNamed && !incoming.contains m.name) = true
      · rw [if_pos absent]
        refine tidy.replace whole (cut .empty) (fun _ => rfl) fun key points => ?_
        exact absurd points (by simp [GroupMember.empty])
      · rw [if_neg absent]
        exact tidy

theorem Tidy.dropAll (tidy : w.Tidy) (incoming : List String) (visits : List Nat)
    : Tidy ⟨w.shell, visits.foldl (GroupMgr.dropAbsent incoming) w.group⟩ := by
  induction visits generalizing w with
  | nil => exact tidy
  | cons i rest ih => exact ih (tidy.dropAbsent incoming i)

theorem Tidy.placeIncoming (tidy : w.Tidy) (walk : List Nat) {existing incoming : List String}
    (named : ∀ name ∈ incoming, name ≠ "")
    : Tidy ⟨w.shell, GroupMgr.placeIncoming w.shell walk existing incoming w.group⟩ := by
  induction incoming generalizing w with
  | nil => exact tidy
  | cons name rest ih =>
      have others := fun n member => named n (List.mem_cons_of_mem _ member)
      rw [GroupMgr.placeIncoming]
      split_ifs
      · exact ih tidy others
      · exact ih (tidy.place walk (named name List.mem_cons_self)) others

theorem incomingNames_named {names : List String} {name : String}
    (member : name ∈ GroupSession.incomingNames sh names)
    : name ≠ "" := by
  have passes := (List.mem_filter.mp (List.mem_dedup.mp member)).2
  simp only [Bool.and_eq_true, bne_iff_ne] at passes
  exact passes.1

theorem Tidy.groupMemberList (tidy : w.Tidy) (walk : List Nat) (memberCount : Nat)
    (names : List String)
    : Tidy ⟨w.shell, w.group.groupMemberList w.shell walk memberCount names⟩ := by
  rw [GroupMgr.groupMemberList]
  split_ifs
  · exact tidy
  · have kept := tidy.dropAll (GroupSession.incomingNames w.shell names)
      (List.range maxGroupPeers)
    exact kept.placeIncoming walk fun name member => incomingNames_named member

theorem Tidy.removeGroupMember (tidy : w.Tidy) (walk : List Nat) (memberName : String)
    : Tidy ⟨w.shell, w.group.removeGroupMember w.shell walk memberName⟩ := by
  rw [GroupMgr.removeGroupMember]
  by_cases self : memberName = w.shell.player.shown.name
  · rw [if_pos self]
    have empty {m : GroupMember} (member : m ∈ w.group.members.map fun _ => GroupMember.empty)
        : m = .empty := by
      obtain ⟨_, _, rfl⟩ := List.mem_map.mp member
      rfl
    refine ⟨by simp [tidy.peers], fun m member _ => ?_, fun m member key points => ?_⟩
    · rw [empty member]
      rfl
    · rw [empty member] at points
      exact absurd points (by simp [GroupMember.empty])
  · rw [if_neg self]
    cases found : updateFirst (fun m : GroupMember => m.name == memberName) (fun _ => .empty)
        w.group.members with
    | none => exact tidy
    | some slots =>
        obtain ⟨front, back, whole, changed, -, -⟩ := updateFirst_split found
        refine tidy.replace whole changed (fun _ => rfl) fun key points => ?_
        exact absurd points (by simp [GroupMember.empty])

-----------------------------------------------------------------------------------------
-- What the shell tells of
-----------------------------------------------------------------------------------------

/-- The slot that a new spawn of a player attaches to shows the spawn already. -/
def ShowsAttached (w : GroupWorld) (npc : UInt8) (spawnName : String) (id : UInt16) : Prop :=
  npc = SPAWN_PLAYER ∨ npc = SPAWN_SELF →
    ∀ m, w.firstCalled spawnName = some m → (m.target w.shell).map (·.id) = some id

theorem inZone_of_target {m : GroupMember} {id : UInt16}
    (target : (m.target sh).map (·.id) = some id)
    : m.inZone = true := by
  cases points : m.spawn with
  | none => simp [GroupMember.target, points] at target
  | some ptr => simp [GroupMember.inZone, points]

/-- The slot that a spawn's signal finds has no pointer, and no slot points to the spawn. -/
def ShowsDetached (w : GroupWorld) (key : Nat) (s : Spawn) : Prop :=
  (s.isPlayer = true → ∀ m, w.firstCalled s.name = some m → m.spawn = none)
    ∧ ∀ m ∈ w.group.members, m.spawn ≠ some (.spawn key)

/-- A spawn that is set under its id is seen as before, unless it is new. -/
theorem setSpawn_seenMember {key : Nat} {s : Spawn} (player : sh.player = w.shell.player)
    (spawns : sh.spawns = w.shell.spawns.insert key s)
    (known : ∀ t, w.shell.spawns.find? key = some t → s.id = t.id)
    {m : GroupMember}
    (rooted : ∀ key, m.spawn = some (.spawn key) → (w.shell.spawns.find? key).isSome = true)
    : seenMember sh m = seenMember w.shell m := by
  refine seenMember_of_target (target_id_of_shell (congrArg Player.id player) fun other points => ?_)
  rw [spawns]
  by_cases same : other = key
  · obtain ⟨t, there⟩ := Option.isSome_iff_exists.mp (rooted other points)
    rw [same] at there ⊢
    rw [OrderedMap.find?_insert_self, there]
    exact congrArg some (known t there)
  · rw [OrderedMap.find?_insert_of_ne _ _ same]

/-- A spawn that was known, and is set again. -/
theorem seen_setSpawn (tidy : w.Tidy) {key : Nat} {s t : Spawn}
    (player : sh.player = w.shell.player) (spawns : sh.spawns = w.shell.spawns.insert key s)
    (there : w.shell.spawns.find? key = some t) (id : s.id = t.id)
    : seen ⟨sh, w.group⟩ = w.seen ∧ Tidy ⟨sh, w.group⟩ := by
  constructor
  · refine List.map_congr_left fun m member => ?_
    refine setSpawn_seenMember player spawns (fun other found => ?_) (tidy.rooted m member)
    obtain rfl := Option.some.inj (there.symm.trans found)
    exact id
  · refine tidy.of_shell fun other isKnown => ?_
    rw [spawns]
    by_cases same : other = key
    · rw [same, OrderedMap.find?_insert_self]
      rfl
    · rwa [OrderedMap.find?_insert_of_ne _ _ same]

/-- A new spawn is seen as what the slot shows that it attaches to. -/
theorem seen_newItem (tidy : w.Tidy) {key : Nat} {s : Spawn} {npc : UInt8} {spawnName : String}
    {id : UInt16} (player : sh.player = w.shell.player)
    (spawns : sh.spawns = w.shell.spawns.insert key s)
    (unknown : w.shell.spawns.find? key = none) (called : s.name = spawnName)
    (isNpc : s.npc = npc) (isId : s.id = id)
    : (seen ⟨sh, w.group.addItem (.spawn key) s⟩ = w.seen ↔ w.ShowsAttached npc spawnName id)
      ∧ Tidy ⟨sh, w.group.addItem (.spawn key) s⟩ := by
  have others {m : GroupMember} (member : m ∈ w.group.members)
      : seenMember sh m = seenMember w.shell m :=
    setSpawn_seenMember player spawns
      (fun t found => absurd (unknown.symm.trans found) (by simp)) (tidy.rooted m member)
  have kept : Tidy ⟨sh, w.group⟩ := by
    refine tidy.of_shell fun other isKnown => ?_
    rw [spawns]
    by_cases same : other = key
    · rw [same, OrderedMap.find?_insert_self]
      rfl
    · rwa [OrderedMap.find?_insert_of_ne _ _ same]
  have unchanged : seen ⟨sh, w.group⟩ = w.seen :=
    List.map_congr_left fun m member => others member
  have player? : s.isPlayer = true ↔ (npc = SPAWN_PLAYER ∨ npc = SPAWN_SELF) := by
    simp [Spawn.isPlayer, isNpc]
  rw [GroupMgr.addItem]
  by_cases isPlayer : s.isPlayer = true
  · simp only [isPlayer, Bool.not_true, Bool.false_eq_true, if_false]
    cases found : updateFirst (·.calls s.name) (fun m => { m with spawn := some (.spawn key) })
        w.group.members with
    | none =>
        refine ⟨iff_of_true unchanged fun _ m first => ?_, kept⟩
        have missing := updateFirst_eq_none.mp found
        rw [firstCalled, ← called] at first
        have calls := List.find?_some first
        exact absurd (calls.symm.trans (missing m (List.mem_of_find?_eq_some first))) (by simp)
    | some slots =>
        obtain ⟨old, members⟩ := slots
        obtain ⟨front, back, whole, changed, calls, -⟩ := updateFirst_split found
        have first : w.firstCalled spawnName = some old := called ▸ find?_of_updateFirst found
        have target : GroupMember.target { old with spawn := some (.spawn key) } sh = some s := by
          change sh.spawns.find? key = some s
          rw [spawns, OrderedMap.find?_insert_self]
        constructor
        · have apart : ∀ m ∈ front ++ back, seenMember sh m = seenMember w.shell m := by
            intro m member
            refine others ?_
            rw [whole]
            simp only [List.mem_append, List.mem_cons] at member ⊢
            tauto
          have replaced := seen_replace_iff { old with spawn := some (.spawn key) } whole apart
          have made : seenMember sh { old with spawn := some (.spawn key) }
              = (old.name, true, some id) := by
            rw [seenMember, target, Option.map_some, isId]
            rfl
          rw [seen, changed, replaced, made, seenMember]
          constructor
          · intro same _ m firstToo
            obtain rfl := Option.some.inj (first.symm.trans firstToo)
            exact ((Prod.mk.inj (Prod.mk.inj same).2).2).symm
          · intro shows
            have ids := shows (player?.mp isPlayer) old first
            rw [ids, inZone_of_target ids]
        · refine kept.replace (w := ⟨sh, w.group⟩) whole changed (fun unnamed => ?_)
            fun other points => ?_
          · exact Bool.noConfusion ((Bool.and_eq_true_iff.mp calls).1.symm.trans unnamed)
          · obtain rfl := SpawnPtr.spawn.inj (Option.some.inj points)
            rw [spawns, OrderedMap.find?_insert_self]
            rfl
  · simp only [isPlayer, Bool.not_false, if_true]
    exact ⟨iff_of_true unchanged fun npcs => absurd (player?.mpr npcs) isPlayer, kept⟩

/-- A slot once a spawn is freed. -/
def freed (key : Nat) (m : GroupMember) : GroupMember :=
  if m.spawn = some (.spawn key) then { m with spawn := some .freed } else m

/-- A slot looks the same once a spawn is gone exactly where it did not point to it. -/
theorem seenMember_freed_iff {key : Nat} {s : Spawn} (there : w.shell.spawns.find? key = some s)
    (player : sh.player = w.shell.player) (spawns : sh.spawns = w.shell.spawns.erase key)
    (m : GroupMember)
    : seenMember sh (freed key m) = seenMember w.shell m ↔ m.spawn ≠ some (.spawn key) := by
  by_cases points : m.spawn = some (.spawn key)
  · refine iff_of_false (fun same => ?_) (not_not_intro points)
    have ids := (Prod.mk.inj (Prod.mk.inj same).2).2
    rw [freed, if_pos points] at ids
    simp [GroupMember.target, points, SpawnShell.deref, there] at ids
  · refine iff_of_true ?_ points
    rw [freed, if_neg points]
    refine seenMember_of_target
      (target_id_of_shell (congrArg Player.id player) fun other leads => ?_)
    have apart : other ≠ key := fun same => points (same ▸ leads)
    rw [spawns, OrderedMap.find?_erase_of_ne _ apart]

/-- A slot whose pointer is dropped looks the same exactly where it had none. -/
theorem seenMember_dropped_iff (w : GroupWorld) (sh : SpawnShell) (key : Nat) (m : GroupMember)
    : seenMember sh (freed key { m with spawn := none }) = seenMember w.shell m
      ↔ m.spawn = none := by
  have dropped : freed key { m with spawn := none } = { m with spawn := none } := if_neg (by simp)
  rw [dropped]
  cases points : m.spawn with
  | none => simp [seenMember, GroupMember.inZone, GroupMember.target, points]
  | some ptr => simp [seenMember, GroupMember.inZone, points]

/-- A spawn that goes is seen to go, unless no slot showed it. -/
theorem seen_detach_iff {key : Nat} {s : Spawn} (there : w.shell.spawns.find? key = some s)
    (player : sh.player = w.shell.player) (spawns : sh.spawns = w.shell.spawns.erase key)
    : seen ⟨sh, (w.group.detach s).freeSpawn key⟩ = w.seen ↔ w.ShowsDetached key s := by
  have kept := seenMember_freed_iff there player spawns
  have same (missing : s.isPlayer = true → ∀ m, w.firstCalled s.name = some m → m.spawn = none)
      : (w.group.members.map (freed key)).map (seenMember sh) = w.seen
        ↔ w.ShowsDetached key s := by
    rw [List.map_map, seen, List.map_inj_left]
    exact ⟨fun all => ⟨missing, fun m member => (kept m).mp (all m member)⟩,
      fun shows m member => (kept m).mpr (shows.2 m member)⟩
  rw [GroupMgr.detach]
  by_cases isPlayer : s.isPlayer = true
  · simp only [isPlayer, Bool.not_true, Bool.false_eq_true, if_false]
    cases found : updateFirst (·.calls s.name) (fun m => { m with spawn := none })
        w.group.members with
    | none =>
        refine same fun _ m first => ?_
        have missing := updateFirst_eq_none.mp found m (List.mem_of_find?_eq_some first)
        exact Bool.noConfusion ((List.find?_some first).symm.trans missing)
    | some slots =>
        obtain ⟨old, members⟩ := slots
        obtain ⟨front, back, whole, changed, calls, -⟩ := updateFirst_split found
        have first : w.firstCalled s.name = some old := find?_of_updateFirst found
        have dropped := seenMember_dropped_iff w sh key old
        change (members.map (freed key)).map (seenMember sh) = w.seen ↔ _
        rw [changed, seen, whole, List.map_map, List.map_append, List.map_append, List.map_cons,
          List.map_cons]
        constructor
        · intro equal
          obtain ⟨left, right⟩ := List.append_inj equal (by simp)
          obtain ⟨here, right⟩ := List.cons.inj right
          refine ⟨fun _ m firstToo => ?_, fun m member => ?_⟩
          · obtain rfl := Option.some.inj (first.symm.trans firstToo)
            exact dropped.mp here
          · rw [whole, List.mem_append, List.mem_cons] at member
            rcases member with member | rfl | member
            · exact (kept m).mp (List.map_inj_left.mp left m member)
            · simp [dropped.mp here]
            · exact (kept m).mp (List.map_inj_left.mp right m member)
        · rintro ⟨missing, apart⟩
          rw [whole] at apart
          have left : front.map (seenMember sh ∘ freed key) = front.map (seenMember w.shell) :=
            List.map_congr_left fun m member => (kept m).mpr (apart m (by simp [member]))
          have right : back.map (seenMember sh ∘ freed key) = back.map (seenMember w.shell) :=
            List.map_congr_left fun m member => (kept m).mpr (apart m (by simp [member]))
          have here := dropped.mpr (missing isPlayer old first)
          rw [left, right]
          exact congrArg (fun m => front.map (seenMember w.shell) ++ m :: _) here
  · simp only [isPlayer, Bool.not_false, if_true]
    exact same fun named => absurd named isPlayer

theorem seen_deleteItem_iff (tidy : w.Tidy) {key : Nat} (spawns : sh.spawns = w.shell.spawns)
    (player : sh.player = w.shell.player)
    : seen ((w.onShell key (sh.deleteItem .tSpawn key)).freeSpawn key) = w.seen
      ↔ ∀ s, w.shell.spawns.find? key = some s → w.ShowsDetached key s := by
  simp only [onShell, GroupWorld.freeSpawn, SpawnShell.deleteItem, spawns]
  cases known : w.shell.spawns.find? key with
  | none =>
      have apart : ∀ m ∈ w.group.members, m.spawn ≠ some (.spawn key) := by
        intro m member points
        simpa [known] using tidy.rooted m member key points
      refine iff_of_true ?_ fun s there => absurd there (by simp)
      rw [List.foldl_nil, freeSpawn_eq apart]
      refine List.map_congr_left fun m _ => seenMember_of_target ?_
      exact target_id_of_shell (congrArg Player.id player) fun other _ => by rw [spawns]
  | some s =>
      have only : (∀ t, some s = some t → w.ShowsDetached key t) ↔ w.ShowsDetached key s :=
        ⟨fun all => all s rfl, fun shows t same => Option.some.inj same ▸ shows⟩
      rw [only]
      exact seen_detach_iff known player rfl

theorem Tidy.detach (tidy : w.Tidy) (s : Spawn) : Tidy ⟨w.shell, w.group.detach s⟩ := by
  rw [GroupMgr.detach]
  by_cases isPlayer : s.isPlayer = true
  · simp only [isPlayer, Bool.not_true, Bool.false_eq_true, if_false]
    cases found : updateFirst (·.calls s.name) (fun m => { m with spawn := none })
        w.group.members with
    | none => exact tidy
    | some slots =>
        obtain ⟨front, back, whole, changed, -, -⟩ := updateFirst_split found
        exact tidy.replace whole changed (fun _ => rfl) fun key points => absurd points (by simp)
  · simp only [isPlayer, Bool.not_false, if_true]
    exact tidy

/-- A spawn is erased, and no pointer leads to where it was. -/
theorem Tidy.eraseSpawn (tidy : w.Tidy) {key : Nat}
    (spawns : sh.spawns = w.shell.spawns.erase key)
    : Tidy ⟨sh, w.group.freeSpawn key⟩ := by
  refine ⟨by simp [GroupMgr.freeSpawn, tidy.peers], fun m member unnamed => ?_,
    fun m member other points => ?_⟩
  · obtain ⟨n, listed, rfl⟩ := List.mem_map.mp member
    by_cases leads : n.spawn = some (.spawn key)
    · rw [if_pos leads] at unnamed
      have none := tidy.unnamed n listed unnamed
      exact absurd (leads.symm.trans none) (by simp)
    · rw [if_neg leads] at unnamed ⊢
      exact tidy.unnamed n listed unnamed
  · obtain ⟨n, listed, rfl⟩ := List.mem_map.mp member
    by_cases leads : n.spawn = some (.spawn key)
    · rw [if_pos leads] at points
      exact absurd points (by simp)
    · rw [if_neg leads] at points
      have apart : other ≠ key := fun same => leads (same ▸ points)
      rw [spawns, OrderedMap.find?_erase_of_ne _ apart]
      exact tidy.rooted n listed other points

theorem Tidy.deleteItem (tidy : w.Tidy) {key : Nat} (spawns : sh.spawns = w.shell.spawns)
    : Tidy ((w.onShell key (sh.deleteItem .tSpawn key)).freeSpawn key) := by
  simp only [onShell, GroupWorld.freeSpawn, SpawnShell.deleteItem, spawns]
  cases known : w.shell.spawns.find? key with
  | none =>
      have apart : ∀ m ∈ w.group.members, m.spawn ≠ some (.spawn key) := by
        intro m member points
        simpa [known] using tidy.rooted m member key points
      rw [List.foldl_nil, freeSpawn_eq apart]
      exact tidy.of_shell fun other isKnown => spawns ▸ isKnown
  | some s => exact (tidy.detach s).eraseSpawn rfl

/-- A zone that is left is seen to be left, unless no member was in it. -/
theorem seen_clear_iff
    : seen ⟨sh, w.group.clear⟩ = w.seen ↔ ∀ m ∈ w.group.members, m.spawn = none := by
  rw [seen, GroupMgr.clear, List.map_map, seen, List.map_inj_left]
  refine forall₂_congr fun m _ => ?_
  cases points : m.spawn with
  | none => simp [seenMember, GroupMember.inZone, GroupMember.target, points]
  | some ptr => simp [seenMember, GroupMember.inZone, points]

theorem Tidy.clear (tidy : w.Tidy) : Tidy ⟨sh, w.group.clear⟩ := by
  refine ⟨by simp [GroupMgr.clear, tidy.peers], fun m member _ => ?_,
    fun m member other points => ?_⟩
  · obtain ⟨n, _, rfl⟩ := List.mem_map.mp member
    rfl
  · obtain ⟨n, _, rfl⟩ := List.mem_map.mp member
    exact absurd points (by simp)

/-- A kill changes nothing that is seen of the roster. -/
theorem seen_killSpawn (tidy : w.Tidy) (id killerId : UInt32)
    : seen (step (.killSpawn id killerId) w) = w.seen ∧ Tidy (step (.killSpawn id killerId) w) := by
  simp only [step, onShell, SpawnShell.killSpawn]
  by_cases other : id ≠ w.shell.player.id.toUInt32
  · rw [if_pos other, SpawnShell.withSpawn]
    cases known : w.shell.spawns.find? id.toNat with
    | none => exact ⟨rfl, tidy⟩
    | some s =>
        have corpse : (SpawnShell.slain w.shell.filterMgr s).isPlayer = false :=
          isPlayer_killSpawn s
        simp only [List.foldl_cons, List.foldl_nil, GroupMgr.slot, GroupMgr.killSpawn,
          detach_eq corpse]
        exact seen_setSpawn tidy rfl rfl known rfl
  · rw [if_neg other]
    generalize hp : (Player.updateFlags _ _).setName _ = p
    have corpse : p.shown.isPlayer = false := by
      rw [← hp, shown_isPlayer]
      exact isPlayer_killSpawn w.shell.player.base
    simp only [List.foldl_cons, List.foldl_nil, GroupMgr.slot, GroupMgr.killSpawn,
      detach_eq corpse]
    refine ⟨List.map_congr_left fun m _ => seenMember_of_target ?_, tidy.of_shell fun _ known => known⟩
    exact target_id_of_shell (hp ▸ rfl) fun _ _ => rfl

theorem seen_newSpawn (tidy : w.Tidy) (d : SpawnStruct)
    : (seen (step (.newSpawn d) w) = w.seen
        ↔ d.npc = SPAWN_SELF ∨ Spawn.calcIsMount d.race d.level = true
          ∨ (w.shell.spawns.find? d.spawnId.toNat).isSome = true
          ∨ w.ShowsAttached (Spawn.npcOf d) d.name d.spawnId.toUInt16)
      ∧ Tidy (step (.newSpawn d) w) := by
  simp only [step, onShell, SpawnShell.newSpawn]
  by_cases self : d.npc = SPAWN_SELF
  · rw [if_pos self]
    exact ⟨iff_of_true rfl (Or.inl self), tidy⟩
  · by_cases mount : Spawn.calcIsMount d.race d.level = true
    · rw [if_neg self, if_pos mount]
      exact ⟨iff_of_true rfl (Or.inr (Or.inl mount)), tidy⟩
    · have same : (w.shell.forgetDead d.spawnId).spawns.find? d.spawnId.toNat
          = w.shell.spawns.find? d.spawnId.toNat := rfl
      simp only [self, mount, same, false_or, if_false, Bool.false_eq_true]
      cases known : w.shell.spawns.find? d.spawnId.toNat with
      | some s =>
          simp only [List.foldl_cons, List.foldl_nil, GroupMgr.slot]
          refine And.imp_left (fun unchanged => iff_of_true unchanged (Or.inl rfl))
            (seen_setSpawn tidy rfl rfl known ?_)
          dsimp only
          rw [Spawn.updateFlags_id]
          exact s.update_id d
      | none =>
          simp only [List.foldl_cons, List.foldl_nil, GroupMgr.slot, Option.isSome_none,
            Bool.false_eq_true, false_or]
          refine seen_newItem tidy rfl rfl known ?_ ?_ ?_
          · dsimp only
            rw [updateFlags_name]
            exact update_name _ d
          · dsimp only
            rw [updateFlags_npc]
            exact update_npc _ d
          · dsimp only
            rw [Spawn.updateFlags_id, Spawn.ofStruct, Spawn.update_id]
            rfl

theorem seen_upsertSpawn (tidy : w.Tidy) (id : UInt16) (r : SpawnRecord)
    : (seen (step (.upsertSpawn id r) w) = w.seen
        ↔ id = w.shell.player.id ∨ (w.shell.spawns.find? id.toNat).isSome = true
          ∨ w.ShowsAttached r.npc r.name id)
      ∧ Tidy (step (.upsertSpawn id r) w) := by
  simp only [step, onShell, SpawnShell.upsertSpawn]
  by_cases self : id = w.shell.player.id
  · rw [if_pos self]
    exact ⟨iff_of_true rfl (Or.inl self), tidy⟩
  · simp only [self, false_or, if_false]
    cases known : w.shell.spawns.find? id.toNat with
    | some s =>
        simp only [List.foldl_cons, List.foldl_nil, GroupMgr.slot]
        exact And.imp_left (fun unchanged => iff_of_true unchanged (Or.inl rfl))
          (seen_setSpawn tidy rfl rfl known rfl)
    | none =>
        simp only [List.foldl_cons, List.foldl_nil, GroupMgr.slot, Option.isSome_none,
          Bool.false_eq_true, false_or]
        exact seen_newItem tidy rfl rfl known rfl rfl rfl

end GroupWorld

namespace GroupSession

open GroupWorld

variable {x y : GroupSession}

-----------------------------------------------------------------------------------------
-- The last update
-----------------------------------------------------------------------------------------

/-- What is seen of a row, and its slot. -/
def GroupRow.seen (r : GroupRow) : SeenMember × Nat := ((r.name, r.inZone, r.spawnId), r.slot)

/-- The rows that the last update had. -/
def held (x : GroupSession) : List GroupRow := x.sent.getLast?.getD []

/-- The client's panel shows, slot by slot, the names, the flags and the ids of the roster. -/
def Agrees (x : GroupSession) : Prop :=
  x.held.map GroupRow.seen
    = (fillGroupUpdate x.world.shell x.world.group).map GroupRow.seen

theorem fillGroupUpdate_seen (w : GroupWorld)
    : (fillGroupUpdate w.shell w.group).map GroupRow.seen = w.seen.zipIdx := by
  rw [GroupWorld.seen, List.zipIdx_map, fillGroupUpdate, List.map_map]
  rfl

theorem onGroupChanged_held
    : x.onGroupChanged.held = fillGroupUpdate x.world.shell x.world.group := by
  simp [onGroupChanged, sendGroupUpdate, held]

/-- What has just been sent agrees. -/
theorem agrees_onGroupChanged : x.onGroupChanged.Agrees := by
  rw [Agrees, onGroupChanged_held]
  rfl

/-- A change that is not sent agrees exactly where it is not seen. -/
theorem agrees_iff_of_held (agrees : x.Agrees) (held : y.held = x.held)
    : y.Agrees ↔ y.world.seen = x.world.seen := by
  rw [Agrees, fillGroupUpdate_seen] at agrees ⊢
  rw [held, agrees]
  constructor
  · intro same
    have names := congrArg (List.map Prod.fst) same
    rw [List.zipIdx_map_fst, List.zipIdx_map_fst] at names
    exact names.symm
  · intro same
    rw [same]

-----------------------------------------------------------------------------------------
-- The group packets
-----------------------------------------------------------------------------------------

theorem Agrees.place (agrees : x.Agrees) (walk : List Nat) (name : String)
    : (x.place walk name).Agrees := by
  rw [GroupSession.place]
  split_ifs
  · exact agrees_onGroupChanged
  · exact agrees

theorem Agrees.addGroupMember (agrees : x.Agrees) (walk : List Nat) (name : String)
    : (x.addGroupMember walk name).Agrees := by
  rw [GroupSession.addGroupMember]
  split_ifs
  · exact agrees
  · exact agrees
  · exact agrees
  · exact agrees.place walk name

/-- A slot is free. -/
def Free (x : GroupSession) : Prop := ∃ m ∈ x.world.group.members, m.isNamed = false

theorem agrees_place_of_free (free : x.Free) (walk : List Nat) (name : String)
    : (x.place walk name).Agrees := by
  obtain ⟨m, member, unnamed⟩ := free
  rw [GroupSession.place, if_pos]
  · exact agrees_onGroupChanged
  · exact List.any_eq_true.mpr ⟨m, member, by simp [unnamed]⟩

theorem Agrees.placeIncoming (agrees : x.Agrees) (walk : List Nat)
    (existing incoming : List String)
    : (placeIncoming walk existing incoming x).Agrees := by
  induction incoming generalizing x with
  | nil => exact agrees
  | cons name rest ih =>
      rw [GroupSession.placeIncoming]
      split_ifs
      · exact ih agrees
      · exact ih (agrees.place walk name)

/-- A panel that shows a name too many is sent again when a name is put into a slot. -/
theorem placeIncoming_agrees_iff (stale : ¬ x.Agrees) (free : x.Free) (walk : List Nat)
    (existing incoming : List String)
    : (placeIncoming walk existing incoming x).Agrees ↔ ∃ name ∈ incoming, name ∉ existing := by
  induction incoming with
  | nil => simpa [placeIncoming] using stale
  | cons name rest ih =>
      rw [placeIncoming]
      by_cases known : name ∈ existing
      · rw [if_pos (List.contains_iff_mem.mpr known), ih]
        simp [known]
      · rw [if_neg fun contains => known (List.contains_iff_mem.mp contains)]
        refine iff_of_true ?_ ⟨name, List.mem_cons_self, known⟩
        exact (agrees_place_of_free free walk name).placeIncoming walk existing rest

/-- The slot at an index is emptied. -/
theorem dropAbsent_members {incoming : List String} {i : Nat} {m : GroupMember}
    (here : x.world.group.members[i]? = some m) (absent : isAbsent incoming m = true)
    : (x.dropAbsent incoming i).world.group.members = x.world.group.members.set i .empty := by
  rw [dropAbsent_world, GroupMgr.dropAbsent]
  have drops : (m.isNamed && !incoming.contains m.name) = true := absent
  simp only [here, if_pos drops]

theorem dropAbsent_of_kept {incoming : List String} {i : Nat}
    (kept : ¬ x.world.group.members[i]?.any (isAbsent incoming) = true)
    : x.dropAbsent incoming i = x :=
  if_neg kept

/-- A removal leaves a client with what was there before it. -/
theorem not_agrees_dropAbsent {incoming : List String} {i : Nat}
    (absent : x.world.group.members[i]?.any (isAbsent incoming) = true)
    : ¬ (x.dropAbsent incoming i).Agrees ∧ (x.dropAbsent incoming i).Free := by
  obtain ⟨m, here, drops⟩ := (Option.any_eq_true _ _).mp absent
  obtain ⟨inside, isHere⟩ := List.getElem?_eq_some_iff.mp here
  have members := dropAbsent_members here drops
  have cut (n : GroupMember) : x.world.group.members.set i n
      = x.world.group.members.take i ++ n :: x.world.group.members.drop (i + 1) := by
    rw [List.set_eq_take_append_cons_drop, if_pos inside]
  have whole := cut m
  rw [← isHere, List.set_getElem_self, isHere] at whole
  constructor
  · have held : (x.dropAbsent incoming i).held = x.onGroupChanged.held := by
      rw [dropAbsent, if_pos absent]
      rfl
    have shell : (x.dropAbsent incoming i).world.shell = x.world.shell := by
      rw [dropAbsent_world]
    rw [agrees_iff_of_held agrees_onGroupChanged held, GroupWorld.seen, members, cut, shell]
    change _ ≠ x.world.seen
    rw [ne_eq, seen_replace_iff .empty whole fun m _ => rfl]
    intro same
    have name : "" = m.name := (Prod.mk.inj same).1
    simp [isAbsent, GroupMember.isNamed, ← name] at drops
  · refine ⟨.empty, ?_, rfl⟩
    rw [members, cut]
    simp

theorem Free.dropAbsent (free : x.Free) (incoming : List String) (i : Nat)
    : (x.dropAbsent incoming i).Free := by
  by_cases absent : x.world.group.members[i]?.any (isAbsent incoming) = true
  · exact (not_agrees_dropAbsent absent).2
  · rw [dropAbsent_of_kept absent]
    exact free

/-- The first loop leaves a panel that is right, or a slot that is free, by induction on the slots
that it visits.
-/
theorem dropAll_agrees_or_free (incoming : List String) (visits : List Nat)
    (before : x.Agrees ∨ x.Free)
    : (visits.foldl (dropAbsent incoming) x).Agrees
      ∨ (visits.foldl (dropAbsent incoming) x).Free := by
  induction visits generalizing x with
  | nil => exact before
  | cons i rest ih =>
      refine ih ?_
      by_cases absent : x.world.group.members[i]?.any (isAbsent incoming) = true
      · exact Or.inr (not_agrees_dropAbsent absent).2
      · rw [dropAbsent_of_kept absent]
        exact before

theorem not_agrees_dropAll (incoming : List String) (visits : List Nat) (stale : ¬ x.Agrees)
    : ¬ (visits.foldl (dropAbsent incoming) x).Agrees := by
  induction visits generalizing x with
  | nil => exact stale
  | cons i rest ih =>
      refine ih ?_
      by_cases absent : x.world.group.members[i]?.any (isAbsent incoming) = true
      · exact (not_agrees_dropAbsent absent).1
      · rwa [dropAbsent_of_kept absent]

/-- The first loop leaves a panel right exactly where it removes no name. -/
theorem dropAll_agrees_iff (agrees : x.Agrees) (incoming : List String) (visits : List Nat)
    : (visits.foldl (dropAbsent incoming) x).Agrees
      ↔ ∀ i ∈ visits, ¬ x.world.group.members[i]?.any (isAbsent incoming) = true := by
  induction visits with
  | nil => simpa using agrees
  | cons i rest ih =>
      by_cases absent : x.world.group.members[i]?.any (isAbsent incoming) = true
      · refine iff_of_false ?_ fun none => none i List.mem_cons_self absent
        exact not_agrees_dropAll incoming rest (not_agrees_dropAbsent absent).1
      · rw [List.foldl_cons, dropAbsent_of_kept absent, ih]
        simp [absent]

/-- The first loop keeps the listed names, by induction on the slots that it visits. -/
theorem mem_names_dropAll {incoming : List String} {name : String} (listed : name ∈ incoming)
    (named : name ≠ "") (visits : List Nat)
    : (∃ m ∈ (visits.foldl (dropAbsent incoming) x).world.group.members, m.name = name)
      ↔ ∃ m ∈ x.world.group.members, m.name = name := by
  induction visits generalizing x with
  | nil => exact Iff.rfl
  | cons i rest ih =>
      rw [List.foldl_cons, ih]
      by_cases absent : x.world.group.members[i]?.any (isAbsent incoming) = true
      · obtain ⟨m, here, drops⟩ := (Option.any_eq_true _ _).mp absent
        obtain ⟨inside, isHere⟩ := List.getElem?_eq_some_iff.mp here
        have unlisted : m.name ∉ incoming := by
          have both := Bool.and_eq_true_iff.mp drops
          simpa using both.2
        rw [dropAbsent_members here drops]
        constructor
        · rintro ⟨n, member, same⟩
          rcases List.mem_or_eq_of_mem_set member with old | rfl
          · exact ⟨n, old, same⟩
          · exact absurd same.symm named
        · rintro ⟨n, member, same⟩
          obtain ⟨j, insideToo, isThere⟩ := List.getElem_of_mem member
          have apart : i ≠ j := by
            intro equal
            subst equal
            rw [isHere] at isThere
            exact unlisted (isThere ▸ same ▸ listed)
          refine ⟨n, ?_, same⟩
          rw [← isThere, ← List.getElem_set_of_ne apart .empty (by simpa using insideToo)]
          exact List.getElem_mem _
      · rw [dropAbsent_of_kept absent]

/-- A list of the members is shown where it is ignored, removes no name, or has a new one. -/
theorem groupMemberList_agrees_iff (agrees : x.Agrees) (tidy : x.world.Tidy) (walk : List Nat)
    (memberCount : Nat) (names : List String)
    : (x.groupMemberList walk memberCount names).Agrees
      ↔ (memberCount = 0 ∨ maxGroupMembers < memberCount)
        ∨ (∀ m ∈ x.world.group.members, m.isNamed = true →
            m.name ∈ incomingNames x.world.shell names)
        ∨ ∃ name ∈ incomingNames x.world.shell names,
            ∀ m ∈ x.world.group.members, m.name ≠ name := by
  rw [groupMemberList]
  by_cases ignored : memberCount = 0 ∨ maxGroupMembers < memberCount
  · rw [if_pos ignored]
    exact iff_of_true agrees (Or.inl ignored)
  · simp only [ignored, if_false, false_or]
    generalize hin : incomingNames x.world.shell names = incoming
    have named : ∀ name ∈ incoming, name ≠ "" := fun name member =>
      incomingNames_named (hin ▸ member)
    generalize hkept : (List.range maxGroupPeers).foldl (dropAbsent incoming) x = kept
    have none : kept.Agrees ↔ ∀ m ∈ x.world.group.members, m.isNamed = true →
        m.name ∈ incoming := by
      rw [← hkept, dropAll_agrees_iff agrees]
      constructor
      · intro passes m member isNamed
        obtain ⟨i, inside, rfl⟩ := List.getElem_of_mem member
        have visited : i ∈ List.range maxGroupPeers := List.mem_range.mpr (tidy.peers ▸ inside)
        by_contra unlisted
        apply passes i visited
        simp [List.getElem?_eq_getElem inside, isAbsent, isNamed, unlisted]
      · intro listed i _ absent
        obtain ⟨m, here, drops⟩ := (Option.any_eq_true _ _).mp absent
        obtain ⟨isNamed, unlisted⟩ := Bool.and_eq_true_iff.mp drops
        have member := listed m (List.mem_of_getElem? here) isNamed
        simp [member] at unlisted
    have new (name : String) (member : name ∈ incoming)
        : name ∉ (kept.world.group.members.filter (·.isNamed)).map (·.name)
          ↔ ∀ m ∈ x.world.group.members, m.name ≠ name := by
      have same := mem_names_dropAll (x := x) member (named name member)
        (List.range maxGroupPeers)
      rw [hkept] at same
      have listed : name ∈ (kept.world.group.members.filter (·.isNamed)).map (·.name)
          ↔ ∃ m ∈ kept.world.group.members, m.name = name := by
        rw [List.mem_map]
        constructor
        · rintro ⟨m, passes, called⟩
          exact ⟨m, (List.mem_filter.mp passes).1, called⟩
        · rintro ⟨m, there, called⟩
          refine ⟨m, List.mem_filter.mpr ⟨there, ?_⟩, called⟩
          simp [GroupMember.isNamed, called, named name member]
      rw [listed, same]
      simp only [not_exists, not_and, ne_eq]
    by_cases shown : kept.Agrees
    · exact iff_of_true (shown.placeIncoming walk _ _) (Or.inl (none.mp shown))
    · have free := (dropAll_agrees_or_free incoming (List.range maxGroupPeers)
        (Or.inl agrees)).resolve_left (hkept ▸ shown)
      rw [placeIncoming_agrees_iff shown (hkept ▸ free), ← none]
      simp only [shown, false_or]
      exact exists_congr fun name => and_congr_right fun member => new name member

/-- The removal of a peer that is there is not shown. -/
theorem removeGroupMember_agrees_iff (agrees : x.Agrees) (tidy : x.world.Tidy) (walk : List Nat)
    (memberName : String)
    : (x.removeGroupMember walk memberName).Agrees
      ↔ memberName = x.world.shell.player.shown.name ∨ memberName = ""
        ∨ ∀ m ∈ x.world.group.members, m.name ≠ memberName := by
  rw [removeGroupMember]
  by_cases self : memberName = x.world.shell.player.shown.name
  · rw [if_pos self]
    exact iff_of_true agrees_onGroupChanged (Or.inl self)
  · rw [if_neg self]
    cases found : updateFirst (fun m : GroupMember => m.name == memberName) (fun _ => .empty)
        x.world.group.members with
    | none =>
        have missing := updateFirst_eq_none.mp found
        have known : ¬ (x.world.group.members.any fun m => m.name == memberName) = true := by
          rw [List.any_eq_true]
          rintro ⟨m, member, same⟩
          exact Bool.noConfusion (same.symm.trans (missing m member))
        rw [if_neg known]
        refine iff_of_true agrees (Or.inr (Or.inr fun m member same => ?_))
        simpa [same] using missing m member
    | some slots =>
        obtain ⟨old, members⟩ := slots
        obtain ⟨front, back, whole, changed, same, -⟩ := updateFirst_split found
        have same := beq_iff_eq.mp same
        have member : old ∈ x.world.group.members := by simp [whole]
        have known : (x.world.group.members.any fun m => m.name == memberName) = true :=
          List.any_eq_true.mpr ⟨old, member, by simp [same]⟩
        rw [if_pos known]
        have emptied
            : (x.world.group.removeGroupMember x.world.shell walk memberName).members
              = front ++ .empty :: back := by
          rw [GroupMgr.removeGroupMember, if_neg self]
          simp only [found, changed]
        have unseen := agrees_iff_of_held
          (y := x.onGroupChanged.modify fun g =>
            g.removeGroupMember x.world.shell walk memberName)
          agrees_onGroupChanged rfl
        have replaced
            : (front ++ .empty :: back).map (seenMember x.world.shell) = x.world.seen
              ↔ seenMember x.world.shell .empty = seenMember x.world.shell old :=
          seen_replace_iff .empty whole fun m _ => rfl
        rw [unseen]
        change (x.world.group.removeGroupMember x.world.shell walk memberName).members.map
          (seenMember x.world.shell) = x.world.seen ↔ _
        rw [emptied, replaced]
        by_cases nameless : memberName = ""
        · refine iff_of_true ?_ (Or.inr (Or.inl nameless))
          have unnamed : old.isNamed = false := by simp [GroupMember.isNamed, same, nameless]
          have spawn := tidy.unnamed old member unnamed
          simp [seenMember, GroupMember.empty, GroupMember.inZone, GroupMember.target, spawn, same,
            nameless]
        · refine iff_of_false (fun equal => nameless ?_) ?_
          · exact same.symm.trans (Prod.mk.inj equal).1.symm
          · rintro (isSelf | isNameless | missing)
            · exact self isSelf
            · exact nameless isNameless
            · exact missing old member same

-----------------------------------------------------------------------------------------
-- Runs
-----------------------------------------------------------------------------------------

/-- What an operation must find for the panel to show the roster afterwards: what it changes
without a signal, or after one, is as it was.
-/
def Shows (w : GroupWorld) : GroupOp → Prop
  | .addGroupMember _ _ | .killSpawn _ _ => True
  | .groupMemberList _ memberCount names =>
      (memberCount = 0 ∨ maxGroupMembers < memberCount)
        ∨ (∀ m ∈ w.group.members, m.isNamed = true → m.name ∈ incomingNames w.shell names)
        ∨ ∃ name ∈ incomingNames w.shell names, ∀ m ∈ w.group.members, m.name ≠ name
  | .removeGroupMember _ memberName =>
      memberName = w.shell.player.shown.name ∨ memberName = ""
        ∨ ∀ m ∈ w.group.members, m.name ≠ memberName
  | .newSpawn d =>
      d.npc = SPAWN_SELF ∨ Spawn.calcIsMount d.race d.level = true
        ∨ (w.shell.spawns.find? d.spawnId.toNat).isSome = true
        ∨ w.ShowsAttached (Spawn.npcOf d) d.name d.spawnId.toUInt16
  | .upsertSpawn id r =>
      id = w.shell.player.id ∨ (w.shell.spawns.find? id.toNat).isSome = true
        ∨ w.ShowsAttached r.npc r.name id
  | .removeSpawn id | .deleteSpawn id =>
      ∀ s, w.shell.spawns.find? id.toNat = some s → w.ShowsDetached id.toNat s
  | .clear => ∀ m ∈ w.group.members, m.spawn = none

theorem tidy_step {w : GroupWorld} (op : GroupOp) (tidy : w.Tidy) : (GroupWorld.step op w).Tidy := by
  cases op with
  | addGroupMember walk name => exact tidy.addGroupMember walk name
  | groupMemberList walk memberCount names => exact tidy.groupMemberList walk memberCount names
  | removeGroupMember walk memberName => exact tidy.removeGroupMember walk memberName
  | newSpawn d => exact (seen_newSpawn tidy d).2
  | upsertSpawn id r => exact (seen_upsertSpawn tidy id r).2
  | removeSpawn id => exact tidy.deleteItem rfl
  | deleteSpawn id => exact tidy.deleteItem rfl
  | killSpawn id killerId => exact (seen_killSpawn tidy id killerId).2
  | clear => exact tidy.clear

/-- One operation leaves the panel the roster's exactly where it finds what it must. -/
theorem step_agrees_iff (op : GroupOp) (tidy : x.world.Tidy) (agrees : x.Agrees)
    : (step op x).Agrees ↔ Shows x.world op := by
  have unsent : ∀ w : GroupWorld, (⟨w, x.sent⟩ : GroupSession).Agrees ↔ w.seen = x.world.seen :=
    fun w => agrees_iff_of_held agrees rfl
  cases op with
  | addGroupMember walk name => exact iff_of_true (agrees.addGroupMember walk name) trivial
  | groupMemberList walk memberCount names =>
      exact groupMemberList_agrees_iff agrees tidy walk memberCount names
  | removeGroupMember walk memberName =>
      exact removeGroupMember_agrees_iff agrees tidy walk memberName
  | newSpawn d => exact (unsent _).trans (seen_newSpawn tidy d).1
  | upsertSpawn id r => exact (unsent _).trans (seen_upsertSpawn tidy id r).1
  | removeSpawn id => exact (unsent _).trans (seen_deleteItem_iff tidy rfl rfl)
  | deleteSpawn id => exact (unsent _).trans (seen_deleteItem_iff tidy rfl rfl)
  | killSpawn id killerId =>
      exact iff_of_true ((unsent _).mpr (seen_killSpawn tidy id killerId).1) trivial
  | clear => exact (unsent _).trans seen_clear_iff

end GroupSession
end Scry
