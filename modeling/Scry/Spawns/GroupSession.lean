import Scry.Spawns.GroupMgr

/-! A live-tailing session that follows the group. Each signal of the group manager runs a slot of
the session at once, which sends the whole roster as it is at that moment.
-/

namespace Scry

open FirstMatch

/-- The spawn that the pointer of a slot leads to. -/
def GroupMember.target (m : GroupMember) (sh : SpawnShell) : Option Spawn := m.spawn.bind sh.deref

/-- A slot on the wire. What is read of the spawn is none where the slot has no pointer, and where
the spawn was freed.
-/
structure GroupRow where
  slot : Nat
  name : String
  inZone : Bool
  spawnId : Option UInt16
  level : Option Int32
  classVal : Option UInt8

def fillGroupUpdate (sh : SpawnShell) (g : GroupMgr) : List GroupRow :=
  g.members.zipIdx.map fun entry =>
    let spawn := entry.1.target sh
    { slot := entry.2
      name := entry.1.name
      inZone := entry.1.inZone
      spawnId := spawn.map (·.id)
      level := spawn.map (·.level)
      classVal := spawn.map (·.classVal) }

/-- The group with a session that follows it; `sent` is what the session has sent, in order. -/
structure GroupSession where
  world : GroupWorld
  sent : List (List GroupRow)

namespace GroupSession

/-- A step of the group manager that signals nothing. -/
def modify (x : GroupSession) (f : GroupMgr → GroupMgr) : GroupSession :=
  { x with world := { x.world with group := f x.world.group } }

/-- `sendGroupUpdate`. -/
def sendGroupUpdate (x : GroupSession) : GroupSession :=
  { x with sent := x.sent ++ [fillGroupUpdate x.world.shell x.world.group] }

/-- The slot for `added`, `removed` and `cleared`, which runs before the manager goes on. -/
def onGroupChanged (x : GroupSession) : GroupSession := x.sendGroupUpdate

/-- A session that subscribes. -/
def subscribe (w : GroupWorld) : GroupSession := sendGroupUpdate ⟨w, []⟩

-----------------------------------------------------------------------------------------
-- The operations with their signals
-----------------------------------------------------------------------------------------

/-- A name that is put into a slot is signalled afterwards. -/
def place (x : GroupSession) (walk : List Nat) (name : String) : GroupSession :=
  if x.world.group.members.any fun m => !m.isNamed then
    (x.modify fun g => g.place x.world.shell walk name).onGroupChanged
  else x

def addGroupMember (x : GroupSession) (walk : List Nat) (name : String) : GroupSession :=
  if name = "" then x
  else if name = x.world.shell.player.shown.name then x
  else if x.world.group.members.any fun m => m.name == name then x
  else x.place walk name

/-- A slot whose name is not listed. -/
def isAbsent (incoming : List String) (m : GroupMember) : Bool :=
  m.isNamed && !incoming.contains m.name

/-- The first loop of `groupMemberList` at one slot: a removal is signalled before it happens. -/
def dropAbsent (incoming : List String) (x : GroupSession) (i : Nat) : GroupSession :=
  if x.world.group.members[i]?.any (isAbsent incoming) then
    x.onGroupChanged.modify fun g => g.dropAbsent incoming i
  else x

/-- The second loop. -/
def placeIncoming (walk : List Nat) (existing : List String)
    : List String → GroupSession → GroupSession
  | [], x => x
  | name :: rest, x =>
      placeIncoming walk existing rest (if existing.contains name then x else x.place walk name)

/-- The names that a list has of peers. -/
def incomingNames (sh : SpawnShell) (names : List String) : List String :=
  (names.filter fun n => n != "" && n != sh.player.shown.name).dedup

def groupMemberList (x : GroupSession) (walk : List Nat) (memberCount : Nat) (names : List String)
    : GroupSession :=
  if memberCount = 0 ∨ maxGroupMembers < memberCount then x
  else
    let incoming := incomingNames x.world.shell names
    let kept := (List.range maxGroupPeers).foldl (dropAbsent incoming) x
    let existing := (kept.world.group.members.filter (·.isNamed)).map (·.name)
    placeIncoming walk existing incoming kept

/-- The player's own removal is signalled afterwards, that of a peer before. -/
def removeGroupMember (x : GroupSession) (walk : List Nat) (memberName : String) : GroupSession :=
  let remove := fun g : GroupMgr => g.removeGroupMember x.world.shell walk memberName
  if memberName = x.world.shell.player.shown.name then (x.modify remove).onGroupChanged
  else if x.world.group.members.any fun m => m.name == memberName then
    x.onGroupChanged.modify remove
  else x

/-- One operation. What the shell tells of is not signalled on. -/
def step (op : GroupOp) (x : GroupSession) : GroupSession :=
  match op with
  | .addGroupMember walk name => x.addGroupMember walk name
  | .groupMemberList walk memberCount names => x.groupMemberList walk memberCount names
  | .removeGroupMember walk memberName => x.removeGroupMember walk memberName
  | .newSpawn _ | .upsertSpawn _ _ | .removeSpawn _ | .deleteSpawn _ | .killSpawn _ _ | .clear =>
      { x with world := GroupWorld.step op x.world }

-----------------------------------------------------------------------------------------
-- The group underneath
-----------------------------------------------------------------------------------------

variable {x : GroupSession}

theorem place_world (walk : List Nat) (name : String)
    : (x.place walk name).world
      = ⟨x.world.shell, x.world.group.place x.world.shell walk name⟩ := by
  rw [place]
  split_ifs with free
  · rfl
  · have none : updateFirst (fun m : GroupMember => !m.isNamed)
        (fun _ => ⟨name, x.world.shell.findPlayerByDisplayName walk name⟩) x.world.group.members
        = none := by
      refine updateFirst_eq_none.mpr fun m member => ?_
      rw [List.any_eq_true, not_exists] at free
      exact Bool.eq_false_iff.mpr fun unnamed => free m ⟨member, unnamed⟩
    rw [GroupMgr.place]
    simp only [none]

theorem addGroupMember_world (walk : List Nat) (name : String)
    : (x.addGroupMember walk name).world
      = ⟨x.world.shell, x.world.group.addGroupMember x.world.shell walk name⟩ := by
  rw [addGroupMember, GroupMgr.addGroupMember]
  split_ifs
  · rfl
  · rfl
  · rfl
  · exact place_world walk name

theorem dropAbsent_world (incoming : List String) (x : GroupSession) (i : Nat)
    : (x.dropAbsent incoming i).world
      = ⟨x.world.shell, x.world.group.dropAbsent incoming i⟩ := by
  rw [dropAbsent]
  split_ifs with absent
  · rfl
  · rw [GroupMgr.dropAbsent]
    cases here : x.world.group.members[i]? with
    | none => rfl
    | some m =>
        rw [here, Option.any_some] at absent
        have kept : ¬ (m.isNamed && !incoming.contains m.name) = true := absent
        simp only [if_neg kept]

theorem dropAll_world (incoming : List String) (visits : List Nat)
    : (visits.foldl (dropAbsent incoming) x).world
      = ⟨x.world.shell, visits.foldl (GroupMgr.dropAbsent incoming) x.world.group⟩ := by
  induction visits generalizing x with
  | nil => rfl
  | cons i rest ih => rw [List.foldl_cons, ih, dropAbsent_world, List.foldl_cons]

theorem placeIncoming_world (walk : List Nat) (existing incoming : List String)
    : (placeIncoming walk existing incoming x).world
      = ⟨x.world.shell,
          GroupMgr.placeIncoming x.world.shell walk existing incoming x.world.group⟩ := by
  induction incoming generalizing x with
  | nil => rfl
  | cons name rest ih =>
      rw [placeIncoming, ih, GroupMgr.placeIncoming]
      split_ifs
      · rfl
      · rw [place_world]

theorem groupMemberList_world (walk : List Nat) (memberCount : Nat) (names : List String)
    : (x.groupMemberList walk memberCount names).world
      = ⟨x.world.shell,
          x.world.group.groupMemberList x.world.shell walk memberCount names⟩ := by
  rw [groupMemberList, GroupMgr.groupMemberList]
  split_ifs
  · rfl
  · simp only [placeIncoming_world, dropAll_world]
    rfl

theorem removeGroupMember_world (walk : List Nat) (memberName : String)
    : (x.removeGroupMember walk memberName).world
      = ⟨x.world.shell, x.world.group.removeGroupMember x.world.shell walk memberName⟩ := by
  rw [removeGroupMember]
  split_ifs with self known
  · rfl
  · rfl
  · have none : updateFirst (fun m : GroupMember => m.name == memberName) (fun _ => .empty)
        x.world.group.members = none := by
      refine updateFirst_eq_none.mpr fun m member => ?_
      rw [List.any_eq_true, not_exists] at known
      exact Bool.eq_false_iff.mpr fun same => known m ⟨member, same⟩
    rw [GroupMgr.removeGroupMember, if_neg self]
    simp only [none]

/-- What a session sees of an operation is the operation. -/
theorem step_world (op : GroupOp) (x : GroupSession)
    : (step op x).world = GroupWorld.step op x.world := by
  cases op with
  | addGroupMember walk name => exact addGroupMember_world walk name
  | groupMemberList walk memberCount names => exact groupMemberList_world walk memberCount names
  | removeGroupMember walk memberName => exact removeGroupMember_world walk memberName
  | newSpawn | upsertSpawn | removeSpawn | deleteSpawn | killSpawn | clear => rfl

end GroupSession

end Scry
