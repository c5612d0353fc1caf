import Mathlib.Data.List.Dedup
import Scry.Library.FirstMatch
import Scry.Library.Machine
import Scry.Spawns.ZoneSession

/-! The group: five slots with the names of the peers and pointers to their spawns, two counters,
and the slots that follow the group packets and the spawn shell.
-/

namespace Scry

open FirstMatch

/-- `MAX_GROUP_MEMBERS`. -/
def maxGroupMembers : Nat := 6

/-- `MAX_GROUP_PEERS`: the player is not in its own roster. -/
def maxGroupPeers : Nat := maxGroupMembers - 1

/-- What a `const Spawn*` points to: the spawn of the shell under a key, the player, or a spawn
that was freed.
-/
inductive SpawnPtr
  | spawn (key : Nat)
  | player
  | freed
  deriving DecidableEq

/-- `GroupMember`. -/
structure GroupMember where
  name : String
  spawn : Option SpawnPtr
  deriving DecidableEq

namespace GroupMember

/-- A slot that is not in use. -/
def empty : GroupMember := ⟨"", none⟩

def isNamed (m : GroupMember) : Bool := m.name != ""

def inZone (m : GroupMember) : Bool := m.spawn.isSome

/-- The test by which the slots match a name with that of a spawn, in either form. -/
def goesBy (name spawnName : String) : Bool :=
  name == spawnName || name == transformedName spawnName

/-- Whether a slot that is in use has the name of a spawn. -/
def calls (spawnName : String) (m : GroupMember) : Bool := m.isNamed && goesBy m.name spawnName

end GroupMember

/-- `GroupMgr`, with its `size_t` counters. -/
structure GroupMgr where
  members : List GroupMember
  memberCount : UInt64
  membersInZoneCount : UInt64
  deriving DecidableEq

namespace SpawnShell

/-- `findPlayerByDisplayName`, by a walk through the hash in whatever order. -/
def findPlayerByDisplayName (sh : SpawnShell) (walk : List Nat) (name : String)
    : Option SpawnPtr :=
  match walk.find? fun key =>
      (sh.spawns.find? key).any fun s => s.isPlayer && GroupMember.goesBy name s.name with
  | some key => some (.spawn key)
  | none => if GroupMember.goesBy name sh.player.shown.name then some .player else none

/-- The spawn behind a pointer. -/
def deref (sh : SpawnShell) : SpawnPtr → Option Spawn
  | .spawn key => sh.spawns.find? key
  | .player => some sh.player.shown
  | .freed => none

end SpawnShell

namespace GroupMgr

/-- The constructor. -/
def fresh : GroupMgr := ⟨List.replicate maxGroupPeers .empty, 0, 0⟩

/-- The loop that puts a name into the first empty slot. -/
def place (g : GroupMgr) (sh : SpawnShell) (walk : List Nat) (name : String) : GroupMgr :=
  let spawn := sh.findPlayerByDisplayName walk name
  match updateFirst (fun m => !m.isNamed) (fun _ => ⟨name, spawn⟩) g.members with
  | none => g
  | some (_, members) =>
      { members
        memberCount := g.memberCount + 1
        membersInZoneCount :=
          if spawn.isSome then g.membersInZoneCount + 1 else g.membersInZoneCount }

/-- `addGroupMember`, after decoding. -/
def addGroupMember (g : GroupMgr) (sh : SpawnShell) (walk : List Nat) (name : String)
    : GroupMgr :=
  if name = "" then g
  else if name = sh.player.shown.name then g
  else if g.members.any fun m => m.name == name then g
  else g.place sh walk name

/-- The first loop of `groupMemberList` at one slot. -/
def dropAbsent (incoming : List String) (g : GroupMgr) (i : Nat) : GroupMgr :=
  match g.members[i]? with
  | none => g
  | some m =>
      if m.isNamed && !incoming.contains m.name then
        { members := g.members.set i .empty
          memberCount := g.memberCount - 1
          membersInZoneCount :=
            if m.inZone then g.membersInZoneCount - 1 else g.membersInZoneCount }
      else g

/-- The second loop of `groupMemberList`. -/
def placeIncoming (sh : SpawnShell) (walk : List Nat) (existing : List String)
    : List String → GroupMgr → GroupMgr
  | [], g => g
  | name :: rest, g =>
      placeIncoming sh walk existing rest
        (if existing.contains name then g else g.place sh walk name)

/-- `groupMemberList`, after decoding. The names are given in the order in which the hash set
made of them is walked.
-/
def groupMemberList (g : GroupMgr) (sh : SpawnShell) (walk : List Nat) (memberCount : Nat)
    (names : List String)
    : GroupMgr :=
  if memberCount = 0 ∨ maxGroupMembers < memberCount then g
  else
    let incoming := (names.filter fun n => n != "" && n != sh.player.shown.name).dedup
    let kept := (List.range maxGroupPeers).foldl (dropAbsent incoming) g
    let existing := (kept.members.filter (·.isNamed)).map (·.name)
    placeIncoming sh walk existing incoming kept

/-- `removeGroupMember`, after decoding. -/
def removeGroupMember (g : GroupMgr) (sh : SpawnShell) (walk : List Nat) (memberName : String)
    : GroupMgr :=
  if memberName = sh.player.shown.name then
    ⟨g.members.map fun _ => .empty, 0, 0⟩
  else
    match updateFirst (fun m => m.name == memberName) (fun _ => .empty) g.members with
    | none => g
    | some (_, members) =>
        { members
          memberCount := g.memberCount - 1
          membersInZoneCount :=
            -- the pointer is looked up again
            if (sh.findPlayerByDisplayName walk memberName).isSome then g.membersInZoneCount - 1
            else g.membersInZoneCount }

/-- `addItem` for a spawn or the player. -/
def addItem (g : GroupMgr) (ptr : SpawnPtr) (spawn : Spawn) : GroupMgr :=
  if !spawn.isPlayer then g
  else
    match updateFirst (·.calls spawn.name) (fun m => { m with spawn := some ptr }) g.members with
    | none => g
    | some (_, members) =>
        { g with members, membersInZoneCount := g.membersInZoneCount + 1 }

/-- What `delItem` and `killSpawn` do with a spawn or the player. -/
def detach (g : GroupMgr) (spawn : Spawn) : GroupMgr :=
  if !spawn.isPlayer then g
  else
    match updateFirst (·.calls spawn.name) (fun m => { m with spawn := none }) g.members with
    | none => g
    | some (_, members) =>
        { g with members, membersInZoneCount := g.membersInZoneCount - 1 }

/-- `delItem`. -/
def delItem (g : GroupMgr) (spawn : Spawn) : GroupMgr := g.detach spawn

/-- `killSpawn`. -/
def killSpawn (g : GroupMgr) (spawn : Spawn) : GroupMgr := g.detach spawn

/-- `clear`. -/
def clear (g : GroupMgr) : GroupMgr :=
  { g with members := g.members.map (fun m => { m with spawn := none }), membersInZoneCount := 0 }

/-- The slots that are connected to the signals of the shell. The key is that of the spawn the
signal is about.
-/
def slot (key : Nat) (g : GroupMgr) : SpawnSignal → GroupMgr
  | .addItem (.spawn s) => g.addItem (.spawn key) s
  | .addItem (.player p) => g.addItem .player p.shown
  | .delItem (.spawn s) => g.delItem s
  | .delItem (.player p) => g.delItem p.shown
  | .killSpawn (.spawn s) _ => g.killSpawn s
  | .killSpawn (.player p) _ => g.killSpawn p.shown
  | _ => g

/-- What becomes of the pointers to a spawn that is freed. -/
def freeSpawn (key : Nat) (g : GroupMgr) : GroupMgr :=
  { g with
    members := g.members.map fun m =>
      if m.spawn = some (.spawn key) then { m with spawn := some .freed } else m }

end GroupMgr

/-- The group of a zone session and the shell whose spawns it points to. -/
structure GroupWorld where
  shell : SpawnShell
  group : GroupMgr

/-- What happens to them. -/
inductive GroupOp
  | addGroupMember (walk : List Nat) (name : String)
  | groupMemberList (walk : List Nat) (memberCount : Nat) (names : List String)
  | removeGroupMember (walk : List Nat) (memberName : String)
  | newSpawn (d : SpawnStruct)
  | upsertSpawn (id : UInt16) (r : SpawnRecord)
  | removeSpawn (id : UInt32)
  | deleteSpawn (id : UInt32)
  | killSpawn (id killerId : UInt32)
  | clear

namespace GroupWorld

/-- A shell and the group manager created for it. -/
def start (sh : SpawnShell) : GroupWorld := ⟨sh, .fresh⟩

/-- An operation of the shell on the spawn under a key, and the slots on its signals. -/
def onShell (w : GroupWorld) (key : Nat) (r : SpawnShell × List SpawnSignal) : GroupWorld :=
  ⟨r.1, r.2.foldl (GroupMgr.slot key) w.group⟩

/-- The spawn under a key is freed once the slots have seen that it goes. -/
def freeSpawn (w : GroupWorld) (key : Nat) : GroupWorld := ⟨w.shell, w.group.freeSpawn key⟩

/-- One operation. `SpawnShell::clear` announces itself before it frees the spawns. -/
def step (op : GroupOp) (w : GroupWorld) : GroupWorld :=
  match op with
  | .addGroupMember walk name => { w with group := w.group.addGroupMember w.shell walk name }
  | .groupMemberList walk memberCount names =>
      { w with group := w.group.groupMemberList w.shell walk memberCount names }
  | .removeGroupMember walk memberName =>
      { w with group := w.group.removeGroupMember w.shell walk memberName }
  | .newSpawn d => w.onShell d.spawnId.toNat (w.shell.newSpawn d)
  | .upsertSpawn id r => w.onShell id.toNat (w.shell.upsertSpawn id r)
  | .removeSpawn id => (w.onShell id.toNat (w.shell.removeSpawn id)).freeSpawn id.toNat
  | .deleteSpawn id => (w.onShell id.toNat (w.shell.deleteSpawn id)).freeSpawn id.toNat
  | .killSpawn id killerId => w.onShell id.toNat (w.shell.killSpawn id killerId)
  | .clear => ⟨w.shell.clear.1, w.group.clear⟩

/-- The books of the group are right: both counters, no name twice, and every pointer to a spawn
that is there and goes by the slot's name.
-/
structure Exact (w : GroupWorld) : Prop where
  counted : w.group.memberCount.toNat = w.group.members.countP (·.isNamed)
  distinct
    : w.group.members.Pairwise fun m other => m.isNamed = true → m.name ≠ other.name
  inZone : w.group.membersInZoneCount.toNat = w.group.members.countP (·.inZone)
  live
    : ∀ m ∈ w.group.members, ∀ ptr, m.spawn = some ptr →
        ∃ s, w.shell.deref ptr = some s ∧ GroupMember.goesBy m.name s.name = true

-----------------------------------------------------------------------------------------
-- One slot changed
-----------------------------------------------------------------------------------------

/-- With the books right, there are as many slots as the array has, and one that is not in use
has no pointer.
-/
structure Books (w : GroupWorld) : Prop extends w.Exact where
  peers : w.group.members.length = maxGroupPeers
  unnamed : ∀ m ∈ w.group.members, m.isNamed = false → m.spawn = none

theorem start_books (sh : SpawnShell) : (start sh).Books where
  counted := (by decide : GroupMgr.fresh.memberCount.toNat = GroupMgr.fresh.members.countP _)
  distinct :=
    (by decide : GroupMgr.fresh.members.Pairwise fun m other =>
      m.isNamed = true → m.name ≠ other.name)
  inZone :=
    (by decide : GroupMgr.fresh.membersInZoneCount.toNat = GroupMgr.fresh.members.countP _)
  live m member ptr points := by
    rw [List.eq_of_mem_replicate member] at points
    exact nomatch points
  peers := (by decide : GroupMgr.fresh.members.length = maxGroupPeers)
  unnamed m member _ := by
    rw [List.eq_of_mem_replicate member]
    rfl

section Slots

variable {w : GroupWorld} {sh : SpawnShell} {g : GroupMgr} {old new : GroupMember}
  {front back : List GroupMember}

/-- The books stay right when the shell changes and every pointer still leads to a spawn that
goes by the slot's name.
-/
theorem Books.of_live (books : w.Books)
    (live
      : ∀ m ∈ w.group.members, ∀ ptr, m.spawn = some ptr →
          ∃ s, sh.deref ptr = some s ∧ GroupMember.goesBy m.name s.name = true)
    : Books ⟨sh, w.group⟩ :=
  ⟨⟨books.counted, books.distinct, books.inZone, live⟩, books.peers, books.unnamed⟩

/-- The books stay right when one slot changes with the counters. -/
theorem Books.replace (new : GroupMember) (books : w.Books)
    (whole : w.group.members = front ++ old :: back)
    (members : g.members = front ++ new :: back)
    (counted
      : g.memberCount.toNat + [old].countP (·.isNamed)
        = w.group.memberCount.toNat + [new].countP (·.isNamed))
    (inZone
      : g.membersInZoneCount.toNat + [old].countP (·.inZone)
        = w.group.membersInZoneCount.toNat + [new].countP (·.inZone))
    (fresh : new.isNamed = true → ∀ m ∈ front ++ back, m.name ≠ new.name)
    (unnamed : new.isNamed = false → new.spawn = none)
    (live
      : ∀ ptr, new.spawn = some ptr →
          ∃ s, w.shell.deref ptr = some s ∧ GroupMember.goesBy new.name s.name = true)
    : Books ⟨w.shell, g⟩ := by
  have kept {m : GroupMember} (member : m ∈ front ++ back) : m ∈ w.group.members := by
    rw [whole]
    simp only [List.mem_append, List.mem_cons] at member ⊢
    tauto
  have named := books.counted
  have zone := books.inZone
  have peers := books.peers
  have distinct := books.distinct
  rw [whole] at named zone peers distinct
  simp only [List.countP_append, List.countP_cons, List.countP_nil, List.length_append,
    List.length_cons] at named zone peers counted inZone
  refine ⟨⟨?_, ?_, ?_, ?_⟩, ?_, ?_⟩
  · simp only [members, List.countP_append, List.countP_cons]
    omega
  · simp only [members]
    rw [List.pairwise_append, List.pairwise_cons] at distinct ⊢
    obtain ⟨left, ⟨_, right⟩, across⟩ := distinct
    refine ⟨left, ⟨fun m member isNamed same => ?_, right⟩, fun m member other listed => ?_⟩
    · exact fresh isNamed m (List.mem_append_right _ member) same.symm
    · rcases List.mem_cons.mp listed with isNew | listed
      · intro isNamed same
        rw [isNew] at same
        have newNamed : new.isNamed = true := by
          rw [GroupMember.isNamed, ← same]
          exact isNamed
        exact fresh newNamed m (List.mem_append_left _ member) same
      · exact across m member other (List.mem_cons_of_mem _ listed)
  · simp only [members, List.countP_append, List.countP_cons]
    omega
  · intro m member ptr points
    simp only [members, List.mem_append, List.mem_cons] at member
    rcases member with member | rfl | member
    · exact books.live m (kept (List.mem_append_left _ member)) ptr points
    · exact live ptr points
    · exact books.live m (kept (List.mem_append_right _ member)) ptr points
  · simp only [members, List.length_append, List.length_cons]
    exact peers
  · intro m member isNamed
    simp only [members, List.mem_append, List.mem_cons] at member
    rcases member with member | rfl | member
    · exact books.unnamed m (kept (List.mem_append_left _ member)) isNamed
    · exact unnamed isNamed
    · exact books.unnamed m (kept (List.mem_append_right _ member)) isNamed

/-- A counter of slots never passes the number of slots, so that it does not wrap. -/
theorem Books.counters_le (books : w.Books)
    : w.group.memberCount.toNat ≤ 5 ∧ w.group.membersInZoneCount.toNat ≤ 5 := by
  have peers : w.group.members.length = 5 := books.peers
  rw [books.counted, books.inZone, ← peers]
  exact ⟨List.countP_le_length, List.countP_le_length⟩

/-- What `findPlayerByDisplayName` finds is there and goes by the name. -/
theorem find_live {walk : List Nat} {name : String} {ptr : SpawnPtr}
    (found : sh.findPlayerByDisplayName walk name = some ptr)
    : ∃ s, sh.deref ptr = some s ∧ GroupMember.goesBy name s.name = true := by
  rw [SpawnShell.findPlayerByDisplayName] at found
  cases listed : walk.find? fun key =>
      (sh.spawns.find? key).any fun s => s.isPlayer && GroupMember.goesBy name s.name with
  | some key =>
      rw [listed] at found
      obtain rfl := Option.some.inj found
      have goes := List.find?_some listed
      cases known : sh.spawns.find? key with
      | none => simp [known] at goes
      | some s =>
          rw [known, Option.any_some, Bool.and_eq_true] at goes
          exact ⟨s, known, goes.2⟩
  | none =>
      rw [listed] at found
      dsimp only at found
      split at found
      · obtain rfl := Option.some.inj found
        exact ⟨_, rfl, ‹_›⟩
      · exact nomatch found

theorem toNat_succ {c : UInt64} (small : c.toNat ≤ 5) : (c + 1).toNat = c.toNat + 1 := by
  rw [UInt64.toNat_add, UInt64.toNat_one]
  omega

theorem toNat_pred {c : UInt64} (positive : 0 < c.toNat) : (c - 1).toNat = c.toNat - 1 := by
  apply UInt64.toNat_sub_of_le
  rw [UInt64.le_iff_toNat_le, UInt64.toNat_one]
  exact positive

/-- A slot that counts is counted. -/
theorem Books.positive (books : w.Books) (old : GroupMember) (member : old ∈ w.group.members)
    : (old.isNamed = true → 0 < w.group.memberCount.toNat)
      ∧ (old.inZone = true → 0 < w.group.membersInZoneCount.toNat) := by
  rw [books.counted, books.inZone]
  exact ⟨fun holds => List.countP_pos_iff.mpr ⟨old, member, holds⟩,
    fun holds => List.countP_pos_iff.mpr ⟨old, member, holds⟩⟩

-----------------------------------------------------------------------------------------
-- The group packets
-----------------------------------------------------------------------------------------

/-- A new name is put into a slot that is not in use. -/
theorem Books.place (books : w.Books) (walk : List Nat) {name : String} (named : name ≠ "")
    (new : ∀ m ∈ w.group.members, m.name ≠ name)
    : Books ⟨w.shell, w.group.place w.shell walk name⟩
      ∧ ∀ m ∈ (w.group.place w.shell walk name).members,
          m ∈ w.group.members ∨ m.name = name := by
  rw [GroupMgr.place]
  generalize hspawn : w.shell.findPlayerByDisplayName walk name = spawn
  cases found : updateFirst (fun m => !m.isNamed) (fun _ => ⟨name, spawn⟩) w.group.members with
  | none => exact ⟨books, fun m member => .inl member⟩
  | some slots =>
      obtain ⟨old, members⟩ := slots
      obtain ⟨front, back, whole, changed, unnamed, -⟩ := updateFirst_split found
      rw [Bool.not_eq_true'] at unnamed
      have member : old ∈ w.group.members := by simp [whole]
      have vacant := books.unnamed old member unnamed
      have small := books.counters_le
      have isNamed : GroupMember.isNamed ⟨name, spawn⟩ = true := by
        simpa [GroupMember.isNamed] using named
      refine ⟨books.replace ⟨name, spawn⟩ whole changed ?_ ?_ ?_ ?_ ?_, ?_⟩
      · simp [unnamed, isNamed, toNat_succ small.1]
      · rcases spawn with _ | ptr
        · simp [GroupMember.inZone, vacant]
        · simp [GroupMember.inZone, vacant, toNat_succ small.2]
      · intro _ m listed
        apply new
        rw [whole]
        simp only [List.mem_append, List.mem_cons] at listed ⊢
        tauto
      · rw [isNamed]
        exact nofun
      · intro ptr points
        exact find_live (hspawn.trans points)
      · intro m listed
        rw [changed, List.mem_append, List.mem_cons] at listed
        rw [whole]
        rcases listed with listed | rfl | listed
        · exact .inl (List.mem_append_left _ listed)
        · exact .inr rfl
        · exact .inl (List.mem_append_right _ (List.mem_cons_of_mem _ listed))

theorem Books.addGroupMember (books : w.Books) (walk : List Nat) (name : String)
    : Books ⟨w.shell, w.group.addGroupMember w.shell walk name⟩ := by
  rw [GroupMgr.addGroupMember]
  split_ifs with empty self tracked
  · exact books
  · exact books
  · exact books
  · refine (books.place walk empty fun m member same => ?_).1
    exact tracked (List.any_eq_true.mpr ⟨m, member, beq_iff_eq.mpr same⟩)

/-- A slot that is in use is emptied with both counters. -/
theorem Books.vacate (books : w.Books) (whole : w.group.members = front ++ old :: back)
    (isNamed : old.isNamed = true)
    : Books ⟨w.shell,
        { members := front ++ .empty :: back
          memberCount := w.group.memberCount - 1
          membersInZoneCount :=
            if old.inZone then w.group.membersInZoneCount - 1
            else w.group.membersInZoneCount }⟩ := by
  have positive := books.positive old (by simp [whole])
  refine books.replace .empty whole rfl ?_ ?_ nofun (fun _ => rfl) nofun
  · have empty : GroupMember.isNamed .empty = false := rfl
    have counted := toNat_pred (positive.1 isNamed)
    have some := positive.1 isNamed
    simp only [List.countP_singleton, isNamed, empty, if_true, Bool.false_eq_true, if_false,
      counted]
    omega
  · have empty : GroupMember.inZone .empty = false := rfl
    by_cases inZone : old.inZone = true
    · have counted := toNat_pred (positive.2 inZone)
      have some := positive.2 inZone
      simp only [List.countP_singleton, inZone, empty, if_true, Bool.false_eq_true, if_false,
        counted]
      omega
    · simp only [List.countP_singleton, inZone, empty, Bool.false_eq_true, if_false]

theorem Books.dropAbsent (books : w.Books) (incoming : List String) (i : Nat)
    : Books ⟨w.shell, w.group.dropAbsent incoming i⟩ := by
  rw [GroupMgr.dropAbsent]
  cases here : w.group.members[i]? with
  | none => exact books
  | some m =>
      dsimp only
      obtain ⟨inside, isHere⟩ := List.getElem?_eq_some_iff.mp here
      have cut (n : GroupMember) : w.group.members.set i n
          = w.group.members.take i ++ n :: w.group.members.drop (i + 1) := by
        rw [List.set_eq_take_append_cons_drop, if_pos inside]
      by_cases absent : (m.isNamed && !incoming.contains m.name) = true
      · rw [if_pos absent, cut]
        refine books.vacate ?_ (Bool.and_eq_true_iff.mp absent).1
        rw [← cut, ← isHere, List.set_getElem_self]
      · rw [if_neg absent]
        exact books

/-- The first loop of `groupMemberList`, by induction on the slots that it visits. -/
theorem Books.dropAll (books : w.Books) (incoming : List String) (visits : List Nat)
    : Books ⟨w.shell, visits.foldl (GroupMgr.dropAbsent incoming) w.group⟩ := by
  induction visits generalizing w with
  | nil => exact books
  | cons i rest ih => exact ih (books.dropAbsent incoming i)

/-- The second loop, by induction on the names: those still to come are in no slot, unless they
were there before.
-/
theorem Books.placeIncoming (books : w.Books) (walk : List Nat) {existing incoming : List String}
    (apart : incoming.Nodup) (named : ∀ name ∈ incoming, name ≠ "")
    (listed
      : ∀ m ∈ w.group.members, m.name ∈ incoming → m.name ∈ existing)
    : Books ⟨w.shell, GroupMgr.placeIncoming w.shell walk existing incoming w.group⟩ := by
  induction incoming generalizing w with
  | nil => exact books
  | cons name rest ih =>
      rw [List.nodup_cons] at apart
      have others := fun n member => named n (List.mem_cons_of_mem _ member)
      rw [GroupMgr.placeIncoming]
      by_cases known : existing.contains name = true
      · rw [if_pos known]
        exact ih books apart.2 others fun m member later =>
          listed m member (List.mem_cons_of_mem _ later)
      · rw [if_neg known]
        obtain ⟨placed, names⟩ := books.place walk (named name List.mem_cons_self)
          fun m member same => known (by
            rw [List.contains_iff_mem, ← same]
            exact listed m member (same ▸ List.mem_cons_self))
        refine ih placed apart.2 others fun m member later => ?_
        rcases names m member with old | same
        · exact listed m old (List.mem_cons_of_mem _ later)
        · exact absurd (same ▸ later) apart.1

theorem Books.groupMemberList (books : w.Books) (walk : List Nat) (memberCount : Nat)
    (names : List String)
    : Books ⟨w.shell, w.group.groupMemberList w.shell walk memberCount names⟩ := by
  rw [GroupMgr.groupMemberList]
  split_ifs with ignored
  · exact books
  · have kept := books.dropAll
      ((names.filter fun n => n != "" && n != w.shell.player.shown.name).dedup)
      (List.range maxGroupPeers)
    have incoming (name : String)
        (member : name ∈ (names.filter fun n =>
          n != "" && n != w.shell.player.shown.name).dedup)
        : name ≠ "" := by
      have passes := (List.mem_filter.mp (List.mem_dedup.mp member)).2
      simp only [Bool.and_eq_true, bne_iff_ne] at passes
      exact passes.1
    refine kept.placeIncoming walk (List.nodup_dedup _) incoming fun m member later => ?_
    apply List.mem_map_of_mem (f := GroupMember.name)
    apply List.mem_filter.mpr
    exact ⟨member, bne_iff_ne.mpr (incoming m.name later)⟩

/-- What `removeGroupMember` must find: the slot with the name is in use, and it has a pointer
exactly when the name is found again.
-/
def RemovesSoundly (w : GroupWorld) (walk : List Nat) (memberName : String) : Prop :=
  memberName = w.shell.player.shown.name
    ∨ ∀ m ∈ w.group.members, m.name = memberName →
        m.isNamed = true
          ∧ m.inZone = (w.shell.findPlayerByDisplayName walk memberName).isSome

theorem Books.removeGroupMember (books : w.Books) {walk : List Nat} {memberName : String}
    (sound : w.RemovesSoundly walk memberName)
    : Books ⟨w.shell, w.group.removeGroupMember w.shell walk memberName⟩ := by
  rw [GroupMgr.removeGroupMember]
  by_cases self : memberName = w.shell.player.shown.name
  · rw [if_pos self]
    have empty {m : GroupMember} (member : m ∈ w.group.members.map fun _ => GroupMember.empty)
        : m = .empty := by
      obtain ⟨_, _, rfl⟩ := List.mem_map.mp member
      rfl
    refine ⟨⟨?_, ?_, ?_, ?_⟩, ?_, ?_⟩
    · symm
      apply List.countP_eq_zero.mpr
      intro m member
      rw [empty member]
      exact Bool.false_ne_true
    · apply List.pairwise_of_forall_mem_list
      intro m member _ _ isNamed
      rw [empty member] at isNamed
      exact absurd isNamed Bool.false_ne_true
    · symm
      apply List.countP_eq_zero.mpr
      intro m member
      rw [empty member]
      exact Bool.false_ne_true
    · intro m member ptr points
      rw [empty member] at points
      exact nomatch points
    · simp [books.peers]
    · intro m member _
      rw [empty member]
      rfl
  · rw [if_neg self]
    cases found : updateFirst (fun m => m.name == memberName) (fun _ => .empty)
        w.group.members with
    | none => exact books
    | some slots =>
        obtain ⟨old, members⟩ := slots
        obtain ⟨front, back, whole, changed, same, -⟩ := updateFirst_split found
        obtain ⟨isNamed, inZone⟩ := (sound.resolve_left self) old (by simp [whole])
          (beq_iff_eq.mp same)
        have vacated := books.vacate whole isNamed
        rw [inZone, ← changed] at vacated
        exact vacated

-----------------------------------------------------------------------------------------
-- The signals of the shell
-----------------------------------------------------------------------------------------

/-- The slot that a spawn's signals find, where one has its name. -/
def firstCalled (w : GroupWorld) (spawnName : String) : Option GroupMember :=
  w.group.members.find? (·.calls spawnName)

/-- Two slots that a spawn's name finds are told apart by their names. -/
theorem Books.unique (books : w.Books) (whole : w.group.members = front ++ old :: back)
    (isNamed : old.isNamed = true) {m : GroupMember} (member : m ∈ front ++ back)
    : m.name ≠ old.name := by
  have distinct := books.distinct
  rw [whole, List.pairwise_append, List.pairwise_cons] at distinct
  obtain ⟨-, ⟨right, -⟩, across⟩ := distinct
  rcases List.mem_append.mp member with member | member
  · intro same
    have named : m.isNamed = true := by
      rw [GroupMember.isNamed, same]
      exact isNamed
    exact across m member old List.mem_cons_self named same
  · exact fun same => right m member isNamed same.symm

/-- A spawn that is there attaches to a slot without a pointer. -/
theorem Books.addItem (books : w.Books) {ptr : SpawnPtr} {s : Spawn}
    (there : w.shell.deref ptr = some s)
    (vacant : s.isPlayer = true → ∀ m, w.firstCalled s.name = some m → m.spawn = none)
    : Books ⟨w.shell, w.group.addItem ptr s⟩ := by
  rw [GroupMgr.addItem]
  by_cases isPlayer : s.isPlayer = true
  · simp only [isPlayer, Bool.not_true, Bool.false_eq_true, if_false]
    cases found : updateFirst (·.calls s.name) (fun m => { m with spawn := some ptr })
        w.group.members with
    | none => exact books
    | some slots =>
        obtain ⟨old, members⟩ := slots
        obtain ⟨front, back, whole, changed, called, -⟩ := updateFirst_split found
        obtain ⟨isNamed, goes⟩ := Bool.and_eq_true_iff.mp called
        have none := vacant isPlayer old (find?_of_updateFirst found)
        have small := books.counters_le
        refine books.replace { old with spawn := some ptr } whole changed ?_ ?_ ?_ ?_ ?_
        · rfl
        · simp [GroupMember.inZone, none, toNat_succ small.2]
        · exact fun _ m member => books.unique whole isNamed member
        · exact fun unnamed => absurd (isNamed.symm.trans unnamed) (by decide)
        · intro other points
          obtain rfl := Option.some.inj points
          exact ⟨s, there, goes⟩
  · simp only [isPlayer, Bool.not_false, if_true]
    exact books

/-- What must be found when a spawn is freed: the slot its signal finds has a pointer, and no
other slot points to the spawn.
-/
def DetachesSoundly (w : GroupWorld) (key : Nat) (s : Spawn) : Prop :=
  (s.isPlayer = true → ∀ m, w.firstCalled s.name = some m → m.inZone = true)
    ∧ ∀ m ∈ w.group.members, m.spawn = some (.spawn key) →
        s.isPlayer = true ∧ w.firstCalled s.name = some m

/-- After the signal that a spawn goes, no slot points to it. -/
theorem Books.detach (books : w.Books) {key : Nat} {s : Spawn}
    (sound : w.DetachesSoundly key s)
    : Books ⟨w.shell, w.group.detach s⟩
      ∧ ∀ m ∈ (w.group.detach s).members, m.spawn ≠ some (.spawn key) := by
  obtain ⟨attached, others⟩ := sound
  rw [GroupMgr.detach]
  by_cases isPlayer : s.isPlayer = true
  · simp only [isPlayer, Bool.not_true, Bool.false_eq_true, if_false]
    cases found : updateFirst (·.calls s.name) (fun m => { m with spawn := none })
        w.group.members with
    | none =>
        refine ⟨books, fun m member points => ?_⟩
        have missing := updateFirst_eq_none.mp found
        have called := List.find?_some (others m member points).2
        exact absurd (called.symm.trans (missing m member)) (by decide)
    | some slots =>
        obtain ⟨old, members⟩ := slots
        obtain ⟨front, back, whole, changed, called, -⟩ := updateFirst_split found
        obtain ⟨isNamed, goes⟩ := Bool.and_eq_true_iff.mp called
        have first := find?_of_updateFirst found
        have inZone := attached isPlayer old first
        have positive := (books.positive old (by simp [whole])).2 inZone
        have counted := toNat_pred positive
        constructor
        · refine books.replace { old with spawn := none } whole changed rfl ?_ ?_
            (fun _ => rfl) nofun
          · have gone : GroupMember.inZone { old with spawn := none } = false := rfl
            simp only [List.countP_singleton, inZone, gone, if_true, Bool.false_eq_true, if_false,
              counted]
            omega
          · exact fun _ m member => books.unique whole isNamed member
        · intro m member points
          rw [changed, List.mem_append, List.mem_cons] at member
          have elsewhere (member : m ∈ front ++ back) : False := by
            have listed : m ∈ w.group.members := by
              rw [whole]
              simp only [List.mem_append, List.mem_cons] at member ⊢
              tauto
            have same := Option.some.inj (((others m listed points).2).symm.trans first)
            exact books.unique whole isNamed member (congrArg GroupMember.name same)
          rcases member with member | rfl | member
          · exact elsewhere (List.mem_append_left _ member)
          · exact nomatch points
          · exact elsewhere (List.mem_append_right _ member)
  · simp only [isPlayer, Bool.not_false, if_true]
    exact ⟨books, fun m member points => isPlayer (others m member points).1⟩

/-- A spawn that no slot points to can be freed. -/
theorem freeSpawn_eq {key : Nat} (apart : ∀ m ∈ g.members, m.spawn ≠ some (.spawn key))
    : g.freeSpawn key = g := by
  have same : (g.members.map fun m =>
      if m.spawn = some (.spawn key) then { m with spawn := some .freed } else m)
      = g.members.map id :=
    List.map_congr_left fun m member => if_neg (apart m member)
  rw [GroupMgr.freeSpawn, same, List.map_id]

/-- The roster outlives the zone. -/
theorem Books.clear (books : w.Books) : Books ⟨sh, w.group.clear⟩ where
  counted := by
    simp only [GroupMgr.clear, List.countP_map]
    exact books.counted
  distinct := by
    simp only [GroupMgr.clear, List.pairwise_map]
    exact books.distinct
  inZone := by
    symm
    apply List.countP_eq_zero.mpr
    intro m member
    obtain ⟨_, _, rfl⟩ := List.mem_map.mp member
    exact Bool.false_ne_true
  live m member ptr points := by
    obtain ⟨_, _, rfl⟩ := List.mem_map.mp member
    exact nomatch points
  peers := by
    simp only [GroupMgr.clear, List.length_map]
    exact books.peers
  unnamed m member _ := by
    obtain ⟨_, _, rfl⟩ := List.mem_map.mp member
    rfl

/-- Every slot that points to a spawn has the name that it gets. -/
def KeepsName (w : GroupWorld) (ptr : SpawnPtr) (newName : String) : Prop :=
  ∀ m ∈ w.group.members, m.spawn = some ptr → GroupMember.goesBy m.name newName = true

/-- A spawn under a key is new or has changed; nothing else in the shell has. -/
theorem Books.setSpawn (books : w.Books) {key : Nat} {s : Spawn} {newName : String}
    (player : sh.player = w.shell.player) (spawns : sh.spawns = w.shell.spawns.insert key s)
    (called : s.name = newName) (named : w.KeepsName (.spawn key) newName)
    : Books ⟨sh, w.group⟩ := by
  refine books.of_live fun m member ptr points => ?_
  obtain ⟨t, there, goes⟩ := books.live m member ptr points
  rcases ptr with other | _ | _
  · rw [SpawnShell.deref, spawns]
    rcases eq_or_ne other key with rfl | apart
    · exact ⟨s, OrderedMap.find?_insert_self _ _ _, called ▸ named m member points⟩
    · exact ⟨t, (OrderedMap.find?_insert_of_ne _ _ apart).trans there, goes⟩
  · rw [SpawnShell.deref, player]
    exact ⟨t, there, goes⟩
  · exact nomatch there

/-- The slot that finds a new spawn of a player has no pointer yet. -/
def AttachesSoundly (w : GroupWorld) (npc : UInt8) (spawnName : String) : Prop :=
  npc = SPAWN_PLAYER ∨ npc = SPAWN_SELF →
    ∀ m, w.firstCalled spawnName = some m → m.spawn = none

/-- A new spawn, and the slot that it attaches to. -/
theorem Books.newItem (books : w.Books) {key : Nat} {s : Spawn} {npc : UInt8}
    {spawnName : String} (player : sh.player = w.shell.player)
    (spawns : sh.spawns = w.shell.spawns.insert key s)
    (unknown : w.shell.spawns.find? key = none) (called : s.name = spawnName)
    (isNpc : s.npc = npc) (attaches : w.AttachesSoundly npc spawnName)
    : Books ⟨sh, w.group.addItem (.spawn key) s⟩ := by
  have named : w.KeepsName (.spawn key) spawnName := by
    intro m member points
    obtain ⟨t, there, -⟩ := books.live m member _ points
    exact nomatch there.symm.trans unknown
  have inserted := books.setSpawn player spawns called named
  apply inserted.addItem
  · rw [SpawnShell.deref, spawns, OrderedMap.find?_insert_self]
  · intro isPlayer m first
    rw [called] at first
    apply attaches _ m first
    simp only [Spawn.isPlayer, isNpc, Bool.or_eq_true, beq_iff_eq] at isPlayer
    exact isPlayer

/-- A spawn that no slot points to is gone. -/
theorem Books.eraseSpawn (books : w.Books) {key : Nat} (player : sh.player = w.shell.player)
    (spawns : sh.spawns = w.shell.spawns.erase key)
    (apart : ∀ m ∈ w.group.members, m.spawn ≠ some (.spawn key))
    : Books ⟨sh, w.group⟩ := by
  refine books.of_live fun m member ptr points => ?_
  obtain ⟨t, there, goes⟩ := books.live m member ptr points
  rcases ptr with other | _ | _
  · rw [SpawnShell.deref, spawns]
    have ne : other ≠ key := fun same => apart m member (same ▸ points)
    exact ⟨t, (OrderedMap.find?_erase_of_ne _ ne).trans there, goes⟩
  · rw [SpawnShell.deref, player]
    exact ⟨t, there, goes⟩
  · exact nomatch there

end Slots

-----------------------------------------------------------------------------------------
-- Runs
-----------------------------------------------------------------------------------------

/-- What an operation must find for the books to stay right. -/
def Finds (w : GroupWorld) : GroupOp → Prop
  | .addGroupMember _ _ | .groupMemberList _ _ _ | .clear => True
  | .removeGroupMember walk memberName => w.RemovesSoundly walk memberName
  | .newSpawn d =>
      d.npc = SPAWN_SELF ∨ Spawn.calcIsMount d.race d.level = true
        ∨ if w.shell.spawns.find? d.spawnId.toNat = none then
            w.AttachesSoundly (Spawn.npcOf d) d.name
          else w.KeepsName (.spawn d.spawnId.toNat) d.name
  | .upsertSpawn id r =>
      id = w.shell.player.id ∨ w.shell.spawns.find? id.toNat ≠ none
        ∨ w.AttachesSoundly r.npc r.name
  | .removeSpawn id | .deleteSpawn id =>
      ∀ s, w.shell.spawns.find? id.toNat = some s → w.DetachesSoundly id.toNat s
  | .killSpawn id _ =>
      if id ≠ w.shell.player.id.toUInt32 then
        ∀ s, w.shell.spawns.find? id.toNat = some s →
          w.KeepsName (.spawn id.toNat) (s.name ++ spawnCorpseDesignator)
      else
        w.KeepsName .player
          (w.shell.player.setName
            (w.shell.player.base.name ++ spawnCorpseDesignator)).shown.name

section Steps

variable {w : GroupWorld}

theorem isPlayer_killSpawn (s : Spawn) : s.killSpawn.isPlayer = false := by
  simp only [Spawn.killSpawn, Spawn.isPlayer]
  split <;> rfl

/-- The slots do not know a corpse for a player any more. -/
theorem detach_eq {g : GroupMgr} {s : Spawn} (corpse : s.isPlayer = false)
    : g.detach s = g := by
  rw [GroupMgr.detach, corpse]
  rfl

theorem shown_name (p : Player)
    : p.shown.name
      = if !p.useAutoDetectedSettings || p.useDefaults then p.defaultName else p.base.name := by
  simp only [Player.shown]
  split <;> rfl

theorem shown_isPlayer (p : Player) : p.shown.isPlayer = p.base.isPlayer := by
  simp only [Player.shown]
  split <;> rfl

theorem update_name (s : Spawn) (d : SpawnStruct) : (s.update d).name = d.name := by
  simp only [Spawn.update]
  split <;> rfl

theorem update_npc (s : Spawn) (d : SpawnStruct) : (s.update d).npc = Spawn.npcOf d := by
  simp only [Spawn.update]
  split <;> rfl

theorem updateFlags_name (s : Spawn) (m : FilterMgr) : (s.updateFlags m).name = s.name := rfl

theorem updateFlags_npc (s : Spawn) (m : FilterMgr) : (s.updateFlags m).npc = s.npc := rfl

theorem Books.newSpawn (books : w.Books) {d : SpawnStruct} (finds : w.Finds (.newSpawn d))
    : Books (step (.newSpawn d) w) := by
  simp only [step, onShell, SpawnShell.newSpawn]
  split_ifs with self mount
  · exact books
  · exact books
  · have finds := (finds.resolve_left self).resolve_left mount
    have same : (w.shell.forgetDead d.spawnId).spawns.find? d.spawnId.toNat
        = w.shell.spawns.find? d.spawnId.toNat := rfl
    cases known : w.shell.spawns.find? d.spawnId.toNat with
    | some s =>
        rw [known, if_neg (Option.some_ne_none s)] at finds
        simp only [same, known, List.foldl_cons, List.foldl_nil, GroupMgr.slot]
        refine books.setSpawn rfl rfl ?_ finds
        dsimp only
        rw [updateFlags_name, update_name]
    | none =>
        rw [known, if_pos rfl] at finds
        simp only [same, known, List.foldl_cons, List.foldl_nil, GroupMgr.slot]
        refine books.newItem rfl rfl known ?_ ?_ finds
        · dsimp only
          rw [updateFlags_name]
          exact update_name _ d
        · dsimp only
          rw [updateFlags_npc]
          exact update_npc _ d

theorem Books.upsertSpawn (books : w.Books) {id : UInt16} {r : SpawnRecord}
    (finds : w.Finds (.upsertSpawn id r))
    : Books (step (.upsertSpawn id r) w) := by
  simp only [step, onShell, SpawnShell.upsertSpawn]
  split_ifs with self
  · exact books
  · have finds := finds.resolve_left self
    cases known : w.shell.spawns.find? id.toNat with
    | some s =>
        simp only [List.foldl_cons, List.foldl_nil, GroupMgr.slot]
        refine books.setSpawn rfl rfl rfl fun m member points => ?_
        obtain ⟨t, there, goes⟩ := books.live m member _ points
        obtain rfl := Option.some.inj (known.symm.trans there)
        exact goes
    | none =>
        simp only [List.foldl_cons, List.foldl_nil, GroupMgr.slot]
        exact books.newItem rfl rfl known rfl rfl (finds.resolve_left (not_not_intro known))

/-- A spawn is deleted and then freed. -/
theorem Books.deleteItem (books : w.Books) {key : Nat} {sh : SpawnShell}
    (spawns : sh.spawns = w.shell.spawns) (player : sh.player = w.shell.player)
    (sound : ∀ s, w.shell.spawns.find? key = some s → w.DetachesSoundly key s)
    : Books ((w.onShell key (sh.deleteItem .tSpawn key)).freeSpawn key) := by
  simp only [onShell, GroupWorld.freeSpawn, SpawnShell.deleteItem, spawns]
  cases known : w.shell.spawns.find? key with
  | none =>
      have apart : ∀ m ∈ w.group.members, m.spawn ≠ some (.spawn key) := by
        intro m member points
        obtain ⟨t, there, -⟩ := books.live m member _ points
        exact nomatch there.symm.trans known
      simp only [List.foldl_nil, freeSpawn_eq apart]
      refine books.of_live fun m member ptr points => ?_
      obtain ⟨t, there, goes⟩ := books.live m member ptr points
      refine ⟨t, ?_, goes⟩
      rw [← there]
      rcases ptr with _ | _ | _ <;> simp only [SpawnShell.deref, spawns, player]
  | some s =>
      obtain ⟨detached, apart⟩ := books.detach (sound s known)
      simp only [List.foldl_cons, List.foldl_nil, GroupMgr.slot, GroupMgr.delItem,
        freeSpawn_eq apart]
      exact detached.eraseSpawn player rfl apart

theorem Books.killSpawn (books : w.Books) {id killerId : UInt32}
    (finds : w.Finds (.killSpawn id killerId))
    : Books (step (.killSpawn id killerId) w) := by
  simp only [step, onShell, SpawnShell.killSpawn]
  by_cases other : id ≠ w.shell.player.id.toUInt32
  · simp only [Finds, if_pos other] at finds
    rw [if_pos other, SpawnShell.withSpawn]
    cases known : w.shell.spawns.find? id.toNat with
    | none => exact books
    | some s =>
        have corpse : (SpawnShell.slain w.shell.filterMgr s).isPlayer = false :=
          isPlayer_killSpawn s
        simp only [List.foldl_cons, List.foldl_nil, GroupMgr.slot, GroupMgr.killSpawn,
          detach_eq corpse]
        exact books.setSpawn rfl rfl rfl (finds s known)
  · simp only [Finds, if_neg other] at finds
    rw [if_neg other]
    generalize hp : (Player.updateFlags _ _).setName _ = p
    have corpse : p.shown.isPlayer = false := by
      rw [← hp, shown_isPlayer]
      exact isPlayer_killSpawn w.shell.player.base
    simp only [List.foldl_cons, List.foldl_nil, GroupMgr.slot, GroupMgr.killSpawn,
      detach_eq corpse]
    refine books.of_live fun m member ptr points => ?_
    obtain ⟨t, there, goes⟩ := books.live m member ptr points
    rcases ptr with key | _ | _
    · exact ⟨t, there, goes⟩
    · have named := finds m member points
      have same : p.shown.name = (w.shell.player.setName
          (w.shell.player.base.name ++ spawnCorpseDesignator)).shown.name := by
        rw [← hp, shown_name, shown_name]
        rfl
      exact ⟨p.shown, rfl, same ▸ named⟩
    · exact nomatch there

/-- One operation on books that are right, where it finds what it must. -/
theorem Books.step (books : w.Books) {op : GroupOp} (finds : w.Finds op)
    : Books (step op w) := by
  cases op with
  | addGroupMember walk name => exact books.addGroupMember walk name
  | groupMemberList walk memberCount names => exact books.groupMemberList walk memberCount names
  | removeGroupMember walk memberName => exact books.removeGroupMember finds
  | newSpawn d => exact books.newSpawn finds
  | upsertSpawn id r => exact books.upsertSpawn finds
  | removeSpawn id => exact books.deleteItem rfl rfl finds
  | deleteSpawn id => exact books.deleteItem rfl rfl finds
  | killSpawn id killerId => exact books.killSpawn finds
  | clear => exact books.clear

/-- In every run in which each operation finds what it must, the books are right in every state,
by induction on the run.
-/
theorem exact_of_reaches {sh : SpawnShell} (reached : Machine.Reaches step Finds (start sh) w)
    : w.Exact :=
  (reached.invariant (start_books sh) fun _ _ finds books => books.step finds).toExact

end Steps

/-- A player's record. -/
def peerRecord (name : String) : SpawnRecord :=
  { name, lastName := "", x := 0, y := 0, z := 0, heading := 0, level := 1, curHpPct := 100
    maxHpPct := 100, race := 1, classVal := 1, deity := 0, guildID := 0, guildServerID := 0
    npc := SPAWN_PLAYER, classMask := 0 }

/-- A peer joins and comes into the zone. -/
def peerArrives : List GroupOp :=
  [.addGroupMember [] "Soandso", .upsertSpawn 6 (peerRecord "Soandso")]

/-- A peer that comes into the zone is counted and found. -/
theorem exact_of_reaches_peerArrives
    : Exact (Machine.exec step (start ZoneSession.newcomer) peerArrives) := by
  have first : (Machine.exec step (start ZoneSession.newcomer)
      (peerArrives.take 1)).firstCalled "Soandso" = some ⟨"Soandso", none⟩ := by
    decide
  have reached : Machine.Reaches step Finds (start ZoneSession.newcomer)
      (Machine.exec step (start ZoneSession.newcomer) peerArrives) := by
    apply Machine.reaches_exec
    refine ⟨trivial, .inr (.inr fun _ m called => ?_), trivial⟩
    rw [← Option.some.inj (first.symm.trans called)]
  exact exact_of_reaches reached

/-- When it is killed its slot keeps pointing to what is now called a corpse. -/
theorem not_exact_killed
    : ¬ ∀ sh w, Machine.Reaches step (fun _ _ => True) (start sh) w → w.Exact := by
  intro always
  have reached : Machine.Reaches step (fun _ _ => True) (start ZoneSession.newcomer)
      (Machine.exec step (start ZoneSession.newcomer) (peerArrives ++ [.killSpawn 6 0])) :=
    Machine.reaches_exec ⟨trivial, trivial, trivial, trivial⟩
  have books := always _ _ reached
  obtain ⟨s, there, goes⟩ := books.live ⟨"Soandso", some (.spawn 6)⟩ (by decide) _ rfl
  have renamed : ∀ s ∈ (Machine.exec step (start ZoneSession.newcomer)
      (peerArrives ++ [.killSpawn 6 0])).shell.spawns.find? 6,
      GroupMember.goesBy "Soandso" s.name = false := by
    decide
  exact absurd (goes.symm.trans (renamed s there)) (by decide)

end GroupWorld
end Scry
