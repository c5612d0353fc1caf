import Scry.Spawns.ZoneSession

/-! The list of dead spawns, by which a late position update of a spawn that was deleted is told
from one of a spawn that is not known yet. The place that is written is counted up before it is
written, and the number of places that are looked through is a count of its own.
-/

namespace Scry

-----------------------------------------------------------------------------------------
-- What each operation does to the list
-----------------------------------------------------------------------------------------

namespace SpawnShell

variable {sh before after : SpawnShell}

/-- The list, the number of places that are looked through, the place that was written last,
and whether unknown spawns are created.
-/
def deadList (sh : SpawnShell) : List UInt16 × Nat × Nat × Bool :=
  (sh.deadSpawnID, sh.cntDeadSpawnIDs, sh.posDeadSpawnIDs, sh.createUnknownSpawns)

/-- The place that the next deletion writes. -/
def nextDead (sh : SpawnShell) : Nat :=
  if sh.posDeadSpawnIDs < maxDeadSpawnIDs - 1 then sh.posDeadSpawnIDs + 1 else 0

/-- A position update adds a spawn. -/
def CreatesUnknown (sh : SpawnShell) (id : UInt16) (m : Movement) : Prop :=
  ∃ s, .addItem (.spawn s) ∈ (sh.updateSpawn id m).2

/-- The list is the same but that some entries, each of an id that is named, are empty. -/
structure Fades (named : UInt16 → Prop) (before after : SpawnShell) : Prop where
  cnt : after.cntDeadSpawnIDs = before.cntDeadSpawnIDs
  pos : after.posDeadSpawnIDs = before.posDeadSpawnIDs
  unknowns : after.createUnknownSpawns = before.createUnknownSpawns
  length : after.deadSpawnID.length = before.deadSpawnID.length
  entries : ∀ i : Nat, after.deadSpawnID[i]? = before.deadSpawnID[i]?
    ∨ (after.deadSpawnID[i]? = some 0 ∧ ∃ x, named x ∧ before.deadSpawnID[i]? = some x)

theorem Fades.of_same {named : UInt16 → Prop} (same : after.deadList = before.deadList)
    : Fades named before after := by
  simp only [deadList, Prod.mk.injEq] at same
  obtain ⟨dead, cnt, pos, unknowns⟩ := same
  exact ⟨cnt, pos, unknowns, by rw [dead], fun i => .inl (by rw [dead])⟩

/-- What follows and leaves the list alone does not matter. -/
theorem Fades.then_same {named : UInt16 → Prop} {last : SpawnShell}
    (fades : Fades named before after) (same : last.deadList = after.deadList)
    : Fades named before last := by
  simp only [deadList, Prod.mk.injEq] at same
  obtain ⟨dead, cnt, pos, unknowns⟩ := same
  exact ⟨cnt.trans fades.cnt, pos.trans fades.pos, unknowns.trans fades.unknowns,
    by rw [dead, fades.length], fun i => by rw [dead]; exact fades.entries i⟩

/-- Entries of an id that is not named stay, and no others become such. -/
theorem Fades.stays {named : UInt16 → Prop} (fades : Fades named before after) {id : UInt16}
    (live : id ≠ 0) (unnamed : ¬ named id) (i : Nat)
    : after.deadSpawnID[i]? = some id ↔ before.deadSpawnID[i]? = some id := by
  rcases fades.entries i with same | ⟨empty, x, isNamed, was⟩
  · rw [same]
  · rw [empty, was]
    constructor
    · intro same
      exact absurd (Option.some.inj same).symm live
    · intro same
      exact absurd (Option.some.inj same ▸ isNamed) unnamed

theorem deadList_withSpawn (key : Nat) (f : Spawn → Spawn × List SpawnSignal)
    : (sh.withSpawn key f).1.deadList = sh.deadList := by
  rw [withSpawn]
  split <;> rfl

theorem deadList_deleteItem (type : SpawnItemType) (id : Nat)
    : (sh.deleteItem type id).1.deadList = sh.deadList := by
  cases type <;>
    · rw [deleteItem]
      split <;> rfl

theorem deadList_adoptName (id : UInt16) : (sh.adoptName id).deadList = sh.deadList := by
  rw [adoptName]
  split
  · rfl
  · split <;> rfl

theorem deadList_playerChangedID (old new : UInt16)
    : (sh.playerChangedID old new).1.deadList = sh.deadList := by
  have first := ((sh.adoptName new).deadList_deleteItem .tPlayer 0).trans
    (deadList_adoptName new)
  simp only [playerChangedID, andThen]
  split
  · exact first
  · have inserted (sh : SpawnShell) (key : Nat)
        : { sh with players := sh.players.insert key () }.deadList = sh.deadList := rfl
    rw [inserted, deadList_deleteItem, deadList_deleteItem, first]

theorem deadList_setPlayerID (id : UInt16) : (sh.setPlayerID id).1.deadList = sh.deadList := by
  rw [setPlayerID]
  split
  · rfl
  · exact deadList_playerChangedID _ _

/-- A new spawn's id is dropped from the list. -/
theorem fades_newSpawn (d : SpawnStruct)
    : Fades (fun x => d.spawnId = x.toUInt32) sh (sh.newSpawn d).1 := by
  have forgets : Fades (fun x => d.spawnId = x.toUInt32) sh (sh.forgetDead d.spawnId) := by
    refine ⟨rfl, rfl, rfl, List.length_mapIdx, fun i => ?_⟩
    rw [forgetDead, List.getElem?_mapIdx]
    cases entry : sh.deadSpawnID[i]? with
    | none => exact .inl rfl
    | some dead =>
        rw [Option.map_some]
        split_ifs with named
        · exact .inr ⟨rfl, dead, named.2.2.symm, rfl⟩
        · exact .inl rfl
  rw [newSpawn]
  split_ifs
  · exact .of_same rfl
  · exact .of_same rfl
  · dsimp only
    split
    · exact forgets.then_same rfl
    · exact forgets.then_same rfl

theorem deadIndex_eq_some {id : UInt16} {i : Nat} (found : sh.deadIndex id = some i)
    : sh.deadSpawnID[i]? = some id := by
  obtain ⟨inside, same, _⟩ := List.findIdx?_eq_some_iff_getElem.mp found
  simp only [List.getElem_take, Bool.and_eq_true, bne_iff_ne, beq_iff_eq] at same
  rw [List.length_take] at inside
  rw [List.getElem?_eq_getElem (by omega), same.2]

/-- A position update empties at most an entry of its own id. -/
theorem fades_updateSpawn (id : UInt16) (m : Movement)
    : Fades (fun x => x = id) sh (sh.updateSpawn id m).1 := by
  rw [updateSpawn]
  split_ifs
  · exact .of_same rfl
  · split
    · exact .of_same rfl
    · split
      · next i found =>
          refine ⟨rfl, rfl, rfl, List.length_set, fun j => ?_⟩
          have entry := deadIndex_eq_some found
          by_cases same : i = j
          · subst same
            have inside := (List.getElem?_eq_some_iff.mp entry).1
            exact .inr ⟨by rw [List.getElem?_set_self inside], id, rfl, entry⟩
          · exact .inl (List.getElem?_set_ne same)
      · exact .of_same rfl
  · split <;> exact .of_same rfl

/-- A deletion writes the next place, and one more is looked through. -/
theorem deadList_deleteSpawn (spawnId : UInt32)
    : (sh.deleteSpawn spawnId).1.deadList
      = (sh.deadSpawnID.set sh.nextDead spawnId.toUInt16,
        if sh.cntDeadSpawnIDs < maxDeadSpawnIDs then sh.cntDeadSpawnIDs + 1
        else sh.cntDeadSpawnIDs,
        sh.nextDead, sh.createUnknownSpawns) :=
  deadList_deleteItem _ _

end SpawnShell

-----------------------------------------------------------------------------------------
-- The operations
-----------------------------------------------------------------------------------------

/-- The operation brings a spawn of the id, or a position update that is for it. -/
def ShellOp.Names (sh : SpawnShell) (id : UInt16) : ShellOp → Prop
  | .newSpawn d => d.spawnId = id.toUInt32
  | .newSpawnPacket d => sh.isZoning = false ∧ d.spawnId = id.toUInt32
  | .zoneEntry d => d.spawnId = id.toUInt32
  | .shroudSpawn spawnID d _ => spawnID ≠ sh.player.id.toUInt32 ∧ d.spawnId = id.toUInt32
  | .playerUpdate other _ => sh.isZoning = false ∧ other ≠ sh.player.id ∧ id = other
  | .npcMoveUpdate other _ => sh.isZoning = false ∧ id = other
  | _ => False

/-- The operation clears the shell. -/
def ShellOp.Clears : ShellOp → Prop
  | .clear => True
  | .boxCreated => True
  | _ => False

/-- The operation is a deletion. -/
def ShellOp.deletion : ShellOp → Bool
  | .deleteSpawn _ => true
  | _ => false

/-- Of the operations that are none of a deletion and a clearing, only those that bring an id
empty its entries, and none does more.
-/
theorem ShellOp.fades {sh : SpawnShell} {op : ShellOp} (keeps : ¬ op.Clears)
    (stays : op.deletion = false)
    : SpawnShell.Fades (fun id => op.Names sh id) sh (op.run sh).1 := by
  cases op with
  | newSpawn d => exact SpawnShell.fades_newSpawn d
  | newSpawnPacket d =>
      simp only [run, SpawnShell.newSpawnPacket, Names]
      split_ifs with zoning
      · exact .of_same rfl
      · simpa [zoning] using SpawnShell.fades_newSpawn d
  | zoneEntry d =>
      simp only [run, SpawnShell.zoneEntry, Names]
      split_ifs
      · exact .of_same (SpawnShell.deadList_setPlayerID _)
      · split
        · exact .of_same rfl
        · exact SpawnShell.fades_newSpawn d
  | shroudSpawn spawnID d profile =>
      simp only [run, SpawnShell.shroudSpawn, Names]
      split_ifs with other
      · simpa [other] using SpawnShell.fades_newSpawn d
      · exact .of_same rfl
  | playerUpdate id m =>
      simp only [run, SpawnShell.playerUpdate, Names]
      split_ifs with ignored
      · exact .of_same rfl
      · rw [not_or] at ignored
        simpa [ignored] using SpawnShell.fades_updateSpawn id m
  | npcMoveUpdate id m =>
      simp only [run, SpawnShell.npcMoveUpdate, Names]
      split_ifs with zoning
      · exact .of_same rfl
      · simpa [zoning] using SpawnShell.fades_updateSpawn id m
  | deleteSpawn id => contradiction
  | clear => exact absurd trivial keeps
  | boxCreated => exact absurd trivial keeps
  | updateSpawnAnimation | updateSpawnHP | updateNpcHP | updateSpawnInfo | updateMobHealth
  | updateSpawnIdentity | illusionSpawn | updateSpawnAppearance | spawnWearingUpdate
  | corpseLoc => exact .of_same (SpawnShell.deadList_withSpawn _ _)
  | removeSpawn | removeGroundItem =>
      refine .of_same ?_
      simp only [run, SpawnShell.removeSpawn, SpawnShell.removeGroundItem]
      first
        | exact SpawnShell.deadList_deleteItem _ _
        | split_ifs
          · rfl
          · exact SpawnShell.deadList_deleteItem _ _
  | moveSpawn | updateSpawnLock | killSpawn =>
      refine .of_same ?_
      simp only [run, SpawnShell.moveSpawn, SpawnShell.updateSpawnLock, SpawnShell.killSpawn]
      split_ifs
      all_goals first
        | rfl
        | exact SpawnShell.deadList_withSpawn _ _
  | setVitals | updatePlayerHP | updatePlayerInfo =>
      refine .of_same ?_
      simp only [run, SpawnShell.setVitals, SpawnShell.updatePlayerHP,
        SpawnShell.updatePlayerInfo]
      split_ifs <;> rfl
  | renameSpawn walk oldName newName =>
      refine .of_same ?_
      simp only [run, SpawnShell.renameSpawn]
      split
      · exact SpawnShell.deadList_withSpawn _ _
      · split_ifs <;> rfl
  | upsertSpawn id r =>
      refine .of_same ?_
      simp only [run, SpawnShell.upsertSpawn]
      split_ifs
      · rfl
      · split <;> rfl
  | newGroundItem d =>
      refine .of_same ?_
      simp only [run, SpawnShell.newGroundItem]
      split_ifs
      · rfl
      · split <;> rfl
  | newDoorSpawn d =>
      refine .of_same ?_
      simp only [run, SpawnShell.newDoorSpawn]
      split <;> rfl
  | setPlayerID id => exact .of_same (SpawnShell.deadList_setPlayerID id)
  | respawnFromHover | guildTagUpdated | filtersChanged | runtimeFiltersChanged =>
      exact .of_same rfl

-----------------------------------------------------------------------------------------
-- The list of a shell
-----------------------------------------------------------------------------------------

namespace SpawnShell

variable {sh before after : SpawnShell}

/-- Until the list is full, it ends at the place that was written last. -/
structure DeadKept (sh : SpawnShell) : Prop where
  length : sh.deadSpawnID.length = maxDeadSpawnIDs
  cnt : sh.cntDeadSpawnIDs ≤ maxDeadSpawnIDs
  pos : sh.posDeadSpawnIDs < maxDeadSpawnIDs
  young : sh.cntDeadSpawnIDs < maxDeadSpawnIDs → sh.posDeadSpawnIDs = sh.cntDeadSpawnIDs
    ∧ ∀ (i : Nat) (x : UInt16), sh.deadSpawnID[i]? = some x → x ≠ 0 → i ≤ sh.cntDeadSpawnIDs

theorem DeadKept.of_fades {named : UInt16 → Prop} (kept : before.DeadKept)
    (fades : Fades named before after)
    : after.DeadKept := by
  refine ⟨fades.length.trans kept.length, fades.cnt ▸ kept.cnt, fades.pos ▸ kept.pos, ?_⟩
  rw [fades.cnt, fades.pos]
  intro young
  refine ⟨(kept.young young).1, fun i x entry some => ?_⟩
  rcases fades.entries i with same | ⟨empty, _⟩
  · exact (kept.young young).2 i x (same ▸ entry) some
  · rw [empty] at entry
    exact absurd (Option.some.inj entry).symm some

/-- An empty list is kept. -/
theorem DeadKept.of_empty {unknowns : Bool}
    (empty : sh.deadList = (List.replicate maxDeadSpawnIDs 0, 0, 0, unknowns))
    : sh.DeadKept := by
  simp only [deadList, Prod.mk.injEq] at empty
  obtain ⟨dead, cnt, pos, _⟩ := empty
  refine ⟨by rw [dead, List.length_replicate], by rw [cnt]; decide, by rw [pos]; decide, ?_⟩
  intro _
  refine ⟨pos.trans cnt.symm, fun i x entry some => ?_⟩
  rw [dead] at entry
  exact absurd (List.eq_of_mem_replicate (List.mem_of_getElem? entry)) some

theorem deleteSpawn_fields (spawnId : UInt32)
    : (sh.deleteSpawn spawnId).1.deadSpawnID
        = sh.deadSpawnID.set sh.nextDead spawnId.toUInt16
      ∧ (sh.deleteSpawn spawnId).1.cntDeadSpawnIDs
        = (if sh.cntDeadSpawnIDs < maxDeadSpawnIDs then sh.cntDeadSpawnIDs + 1
          else sh.cntDeadSpawnIDs)
      ∧ (sh.deleteSpawn spawnId).1.posDeadSpawnIDs = sh.nextDead
      ∧ (sh.deleteSpawn spawnId).1.createUnknownSpawns = sh.createUnknownSpawns := by
  simpa only [deadList, Prod.mk.injEq] using sh.deadList_deleteSpawn spawnId

theorem DeadKept.deleteSpawn (kept : sh.DeadKept) (spawnId : UInt32)
    : (sh.deleteSpawn spawnId).1.DeadKept := by
  obtain ⟨dead, cnt, pos, _⟩ := sh.deleteSpawn_fields spawnId
  have most := kept.cnt
  have here := kept.pos
  have next : sh.nextDead < maxDeadSpawnIDs := by
    rw [nextDead]
    split_ifs <;> omega
  refine ⟨by rw [dead, List.length_set, kept.length], ?_, pos ▸ next, ?_⟩
  · rw [cnt]
    split_ifs <;> omega
  · rw [cnt, pos]
    intro young
    have before : sh.cntDeadSpawnIDs < maxDeadSpawnIDs - 1 := by
      split_ifs at young <;> omega
    obtain ⟨last, ends⟩ := kept.young (by omega)
    have at_next : sh.nextDead = sh.cntDeadSpawnIDs + 1 := by
      rw [nextDead, last, if_pos before]
    rw [if_pos (by omega)]
    refine ⟨at_next, fun i x entry some => ?_⟩
    rw [dead] at entry
    by_cases same : sh.nextDead = i
    · omega
    · rw [List.getElem?_set_ne same] at entry
      have := ends i x entry some
      omega

/-- Every operation keeps the list. -/
theorem DeadKept.run (kept : sh.DeadKept) (op : ShellOp) : (op.run sh).1.DeadKept := by
  by_cases clears : op.Clears
  · cases op with
    | clear => exact .of_empty rfl
    | boxCreated => exact .of_empty rfl
    | _ => exact absurd clears id
  · cases deletes : op.deletion with
    | false => exact kept.of_fades (ShellOp.fades clears deletes)
    | true =>
        cases op with
        | deleteSpawn spawnId => exact kept.deleteSpawn spawnId
        | _ => contradiction

-----------------------------------------------------------------------------------------
-- One entry of the list
-----------------------------------------------------------------------------------------

/-- The id that was deleted from a shell, so many deletions later: its place has not come
round again.
-/
structure Buried (start : SpawnShell) (id : UInt16) (later : Nat) (sh : SpawnShell) : Prop where
  length : sh.deadSpawnID.length = maxDeadSpawnIDs
  entry : sh.deadSpawnID[start.nextDead]? = some id
  pos : sh.posDeadSpawnIDs = (start.nextDead + later) % maxDeadSpawnIDs
  cnt : sh.cntDeadSpawnIDs = min (start.cntDeadSpawnIDs + 1 + later) maxDeadSpawnIDs
  unknowns : sh.createUnknownSpawns = start.createUnknownSpawns
  others : later = 0 → ∀ i, i ≠ start.nextDead →
    (sh.deadSpawnID[i]? = some id ↔ start.deadSpawnID[i]? = some id)

theorem DeadKept.nextDead_eq (kept : sh.DeadKept)
    : sh.nextDead = (sh.posDeadSpawnIDs + 1) % maxDeadSpawnIDs := by
  have here : sh.posDeadSpawnIDs < 50 := kept.pos
  rw [nextDead, maxDeadSpawnIDs]
  split_ifs <;> omega

theorem DeadKept.buried (kept : sh.DeadKept) (id : UInt16)
    : Buried sh id 0 (sh.deleteSpawn id.toUInt32).1 := by
  obtain ⟨dead, cnt, pos, unknowns⟩ := sh.deleteSpawn_fields id.toUInt32
  have most := kept.cnt
  have next : sh.nextDead < maxDeadSpawnIDs := by
    rw [kept.nextDead_eq]
    exact Nat.mod_lt _ (by decide)
  have narrow : id.toUInt32.toUInt16 = id := UInt16.toUInt16_toUInt32 id
  refine ⟨by rw [dead, List.length_set, kept.length], ?_, ?_, ?_, unknowns, ?_⟩
  · rw [dead, narrow, List.getElem?_set_self (by rw [kept.length]; exact next)]
  · rw [pos, Nat.add_zero, Nat.mod_eq_of_lt next]
  · rw [cnt]
    split_ifs <;> omega
  · intro _ i other
    rw [dead, List.getElem?_set_ne (Ne.symm other)]

/-- What does not bring the id leaves its entry where it is. -/
theorem Buried.of_fades {named : UInt16 → Prop} {start : SpawnShell} {id : UInt16} {later : Nat}
    (buried : Buried start id later before) (fades : Fades named before after) (live : id ≠ 0)
    (unnamed : ¬ named id)
    : Buried start id later after := by
  refine ⟨fades.length.trans buried.length, (fades.stays live unnamed _).mpr buried.entry,
    fades.pos.trans buried.pos, fades.cnt.trans buried.cnt,
    fades.unknowns.trans buried.unknowns, fun first i other => ?_⟩
  rw [fades.stays live unnamed]
  exact buried.others first i other

/-- Another deletion writes another place, as long as they do not go round. -/
theorem Buried.deleteSpawn {start : SpawnShell} {id : UInt16} {later : Nat}
    (buried : Buried start id later sh) (kept : start.DeadKept) (spawnId : UInt32)
    (few : later + 1 < maxDeadSpawnIDs)
    : Buried start id (later + 1) (sh.deleteSpawn spawnId).1 := by
  obtain ⟨dead, cnt, pos, unknowns⟩ := sh.deleteSpawn_fields spawnId
  have last := buried.pos
  have count := buried.cnt
  have first : start.nextDead < 50 := by
    rw [kept.nextDead_eq]
    exact Nat.mod_lt _ (by decide)
  have next : sh.nextDead = (start.nextDead + (later + 1)) % maxDeadSpawnIDs := by
    rw [maxDeadSpawnIDs] at last ⊢
    rw [nextDead, maxDeadSpawnIDs]
    split_ifs <;> omega
  refine ⟨by rw [dead, List.length_set, buried.length], ?_, pos.trans next, ?_,
    unknowns.trans buried.unknowns, fun none => absurd none (by omega)⟩
  · have other : sh.nextDead ≠ start.nextDead := by
      rw [maxDeadSpawnIDs] at next few
      omega
    rw [dead, List.getElem?_set_ne other]
    exact buried.entry
  · rw [cnt, count]
    split_ifs <;> omega

end SpawnShell

-----------------------------------------------------------------------------------------
-- Runs
-----------------------------------------------------------------------------------------

namespace ZoneOp

/-- What happens is a deletion. -/
def deletion : ZoneOp → Bool
  | .shell op => op.deletion
  | _ => false

/-- What happens clears no list and brings neither a spawn of the id nor an update for it. -/
def Spares (id : UInt16) (w : ZoneSession) : ZoneOp → Prop
  | .shell op => ¬ op.Clears ∧ ¬ op.Names w.shell id
  | .zoneBegin _ _ => False
  | .zoneChanged _ _ => False
  | _ => True

end ZoneOp

namespace ZoneSession

open SpawnShell (DeadKept Buried)

/-- A state that a session comes to from a shell that takes unknown spawns. -/
def Reached (w : ZoneSession) : Prop :=
  ∃ player filterMgr guildIdToName ops,
    w = Machine.exec step (fresh (.fresh player filterMgr guildIdToName true)) ops

variable {w : ZoneSession}

theorem subscribe_shell : w.subscribe.shell = w.shell := by
  rw [subscribe]
  split_ifs
  · rfl
  · exact sendSnapshot_shell _

/-- What happens outside the shell's own operations leaves the list, or empties it. -/
theorem step_deadList {op : ZoneOp} (outside : ∀ inner, op ≠ .shell inner)
    : (step op w).shell.deadList = w.shell.deadList
      ∨ (step op w).shell.deadList
        = (List.replicate maxDeadSpawnIDs 0, 0, 0, w.shell.createUnknownSpawns) := by
  cases op with
  | shell inner => exact absurd rfl (outside inner)
  | zoneBegin shortName filterMask =>
      right
      simp only [step, zoneBegin, send_shell, perform_shell]
      rfl
  | zoneChanged shortName filterMask =>
      right
      simp only [step, zoneChanged, onZoneChanged_shell, perform_shell]
      rfl
  | zoneResolved shortName filterMask =>
      left
      simp only [step, zoneResolved, onZoneChanged_shell, perform_shell]
      rfl
  | zoneManager shortName isZoning => exact .inl rfl
  | subscribe =>
      left
      rw [step, subscribe_shell]

/-- A step keeps the list, and whether unknown spawns are created. -/
theorem deadKept_step (kept : w.shell.DeadKept) (op : ZoneOp)
    : (step op w).shell.DeadKept
      ∧ (step op w).shell.createUnknownSpawns = w.shell.createUnknownSpawns := by
  by_cases inside : ∃ inner, op = .shell inner
  · obtain ⟨inner, rfl⟩ := inside
    rw [step, perform_shell]
    refine ⟨kept.run inner, ?_⟩
    by_cases clears : inner.Clears
    · cases inner with
      | clear => rfl
      | boxCreated => rfl
      | _ => exact absurd clears id
    · cases deletes : inner.deletion with
      | false => exact (ShellOp.fades clears deletes).unknowns
      | true =>
          cases inner with
          | deleteSpawn spawnId => exact (w.shell.deleteSpawn_fields spawnId).2.2.2
          | _ => contradiction
  · rcases step_deadList (w := w) fun inner same => inside ⟨inner, same⟩ with same | empty
    · have fades : SpawnShell.Fades (fun _ => False) w.shell (step op w).shell := .of_same same
      exact ⟨kept.of_fades fades, fades.unknowns⟩
    · exact ⟨.of_empty empty, congrArg (fun list => list.2.2.2) empty⟩

theorem deadKept_exec (kept : w.shell.DeadKept) (unknowns : w.shell.createUnknownSpawns = true)
    (ops : List ZoneOp)
    : (Machine.exec step w ops).shell.DeadKept
      ∧ (Machine.exec step w ops).shell.createUnknownSpawns = true := by
  refine Machine.exec_invariant
    (I := fun w : ZoneSession => w.shell.DeadKept ∧ w.shell.createUnknownSpawns = true)
    ⟨kept, unknowns⟩ ?_ ops
  rintro w op ⟨kept, unknowns⟩
  obtain ⟨after, same⟩ := deadKept_step kept op
  exact ⟨after, same.trans unknowns⟩

theorem Reached.deadKept (reached : w.Reached)
    : w.shell.DeadKept ∧ w.shell.createUnknownSpawns = true := by
  obtain ⟨player, filterMgr, guildIdToName, ops, rfl⟩ := reached
  exact deadKept_exec (.of_empty rfl) rfl ops

/-- An entry stays in its place through everything that spares its id, while the deletions do
not come round to it; by induction on what happens.
-/
theorem buried_exec {start : SpawnShell} {id : UInt16} {later : Nat} {ops : List ZoneOp}
    (kept : start.DeadKept) (live : id ≠ 0) (buried : Buried start id later w.shell)
    (permits : Machine.Permits step (ZoneOp.Spares id) w ops)
    (few : later + ops.countP ZoneOp.deletion < maxDeadSpawnIDs)
    : Buried start id (later + ops.countP ZoneOp.deletion) (Machine.exec step w ops).shell := by
  induction ops generalizing w later with
  | nil => exact buried
  | cons op rest ih =>
      obtain ⟨spares, permits⟩ := permits
      cases deletes : op.deletion with
      | true =>
          have one : (op :: rest).countP ZoneOp.deletion = rest.countP ZoneOp.deletion + 1 :=
            List.countP_cons_of_pos deletes
          rw [one] at few ⊢
          have more : Buried start id (later + 1) (step op w).shell := by
            cases op with
            | shell inner =>
                cases inner with
                | deleteSpawn spawnId =>
                    rw [step, perform_shell]
                    exact buried.deleteSpawn kept spawnId (by omega)
                | _ => contradiction
            | _ => contradiction
          have all := ih more permits (by omega)
          rwa [show later + 1 + rest.countP ZoneOp.deletion
            = later + (rest.countP ZoneOp.deletion + 1) by omega] at all
      | false =>
          have none : (op :: rest).countP ZoneOp.deletion = rest.countP ZoneOp.deletion :=
            List.countP_cons_of_neg (by rw [deletes]; exact Bool.false_ne_true)
          rw [none] at few ⊢
          refine ih ?_ permits few
          by_cases inside : ∃ inner, op = .shell inner
          · obtain ⟨inner, rfl⟩ := inside
            rw [step, perform_shell]
            exact buried.of_fades (ShellOp.fades spares.1 deletes) live spares.2
          · have same : (step op w).shell.deadList = w.shell.deadList := by
              cases op with
              | shell inner => exact absurd ⟨inner, rfl⟩ inside
              | zoneBegin => exact False.elim spares
              | zoneChanged => exact False.elim spares
              | zoneResolved shortName filterMask =>
                  simp only [step, zoneResolved, onZoneChanged_shell, perform_shell]
                  rfl
              | zoneManager shortName isZoning => rfl
              | subscribe => rw [step, subscribe_shell]
            have fades : SpawnShell.Fades (fun _ => False) w.shell (step op w).shell :=
              .of_same same
            exact buried.of_fades fades live not_false

end ZoneSession

-----------------------------------------------------------------------------------------
-- The next position update
-----------------------------------------------------------------------------------------

namespace SpawnShell

variable {sh : SpawnShell} {id : UInt16}

/-- An id is found where it is among the places that are looked through, unless it is 0. -/
theorem deadIndex_eq_none
    : sh.deadIndex id = none
      ↔ id = 0 ∨ ∀ i < sh.cntDeadSpawnIDs, sh.deadSpawnID[i]? ≠ some id := by
  simp only [deadIndex, List.findIdx?_eq_none_iff, List.mem_take_iff_getElem]
  constructor
  · intro absent
    by_cases zero : id = 0
    · exact .inl zero
    · refine .inr fun i looked entry => ?_
      obtain ⟨inside, same⟩ := List.getElem?_eq_some_iff.mp entry
      have unfound := absent id ⟨i, by omega, same⟩
      simp [zero] at unfound
  · rintro none dead ⟨i, inside, rfl⟩
    simp only [Bool.and_eq_false_iff, bne_eq_false_iff_eq, beq_eq_false_iff_ne]
    by_cases same : sh.deadSpawnID[i] = id
    · rcases none with zero | absent
      · exact .inl (same.trans zero)
      · refine absurd ?_ (absent i (by omega))
        rw [List.getElem?_eq_getElem (by omega), same]
    · exact .inr same

/-- A position update creates a spawn where its id is neither the player's nor a spawn's and
is not found among the dead.
-/
theorem createsUnknown_iff (unknowns : sh.createUnknownSpawns = true) (m : Movement)
    : sh.CreatesUnknown id m
      ↔ id ≠ sh.player.id ∧ sh.spawns.find? id.toNat = none ∧ sh.deadIndex id = none := by
  rw [CreatesUnknown, updateSpawn]
  split_ifs with own
  · simp [own]
  · cases known : sh.spawns.find? id.toNat with
    | some s => simp
    | none =>
        cases found : sh.deadIndex id with
        | some i => simp
        | none => simp [own]

/-- The entry is looked through, unless it was the last one in a list that is not full. -/
theorem Buried.found {start : SpawnShell} {later : Nat} (buried : Buried start id later sh)
    (kept : start.DeadKept) (live : id ≠ 0)
    : sh.deadIndex id ≠ none
      ↔ maxDeadSpawnIDs ≤ start.cntDeadSpawnIDs + 1 ∨ id ∈ start.deadSpawnID ∨ 0 < later := by
  have count := buried.cnt
  have most := kept.cnt
  rw [ne_eq, deadIndex_eq_none, not_or, and_iff_right live]
  simp only [not_forall, not_not]
  have young : ¬ maxDeadSpawnIDs ≤ start.cntDeadSpawnIDs + 1 →
      start.nextDead = start.cntDeadSpawnIDs + 1 := by
    intro few
    rw [nextDead, (kept.young (by omega)).1, if_pos (by omega)]
  constructor
  · rintro ⟨i, looked, entry⟩
    by_contra none
    obtain ⟨few, absent, last⟩ : ¬ maxDeadSpawnIDs ≤ start.cntDeadSpawnIDs + 1
        ∧ id ∉ start.deadSpawnID ∧ later = 0 := by
      refine ⟨fun h => none (.inl h), fun h => none (.inr (.inl h)), ?_⟩
      by_contra h
      exact none (.inr (.inr (by omega)))
    have next := young few
    subst last
    exact absent (List.mem_of_getElem? ((buried.others rfl i (by omega)).mp entry))
  · intro some
    by_cases full : maxDeadSpawnIDs ≤ start.cntDeadSpawnIDs + 1
    · have inside := (List.getElem?_eq_some_iff.mp buried.entry).1
      rw [buried.length] at inside
      exact ⟨start.nextDead, by omega, buried.entry⟩
    · have next := young full
      by_cases more : 0 < later
      · exact ⟨start.nextDead, by omega, buried.entry⟩
      · have last : later = 0 := by omega
        subst last
        have old : id ∈ start.deadSpawnID := by
          rcases some with h | h | h
          · exact absurd h full
          · exact h
          · exact absurd h more
        obtain ⟨i, inside, same⟩ := List.getElem_of_mem old
        have entry : start.deadSpawnID[i]? = Option.some id := by
          rw [List.getElem?_eq_getElem inside, same]
        have low := (kept.young (by omega)).2 i id entry live
        exact ⟨i, by omega, (buried.others rfl i (by omega)).mpr entry⟩

end SpawnShell

namespace ZoneSession

/-- An id was deleted; nothing since then cleared the list or brought the id; and fewer
deletions followed than the list has places. Then the next position update for the id creates
no spawn exactly where the id has come to be the player's or a spawn's, or the list was full
or nearly so, or had the id before, or there was one more deletion.
-/
theorem recentlyDeleted_iff {w later : ZoneSession} (reached : w.Reached) {id : UInt16}
    {ops : List ZoneOp}
    (ran : later = Machine.exec step (step (.shell (.deleteSpawn id.toUInt32)) w) ops)
    (spares : Machine.Permits step (ZoneOp.Spares id)
      (step (.shell (.deleteSpawn id.toUInt32)) w) ops)
    (few : ops.countP ZoneOp.deletion ≤ maxDeadSpawnIDs - 1) (m : Movement)
    : ¬ later.shell.CreatesUnknown id m
      ↔ id = later.shell.player.id ∨ later.shell.spawns.find? id.toNat ≠ none
        ∨ (id ≠ 0
          ∧ (maxDeadSpawnIDs - 1 ≤ w.shell.cntDeadSpawnIDs ∨ id ∈ w.shell.deadSpawnID
            ∨ 0 < ops.countP ZoneOp.deletion)) := by
  obtain ⟨kept, unknowns⟩ := reached.deadKept
  have deleted : (step (.shell (.deleteSpawn id.toUInt32)) w).shell
      = (w.shell.deleteSpawn id.toUInt32).1 := by
    rw [step, perform_shell]
    rfl
  have laterUnknowns : later.shell.createUnknownSpawns = true := by
    obtain ⟨afterKept, same⟩ := deadKept_step kept (.shell (.deleteSpawn id.toUInt32))
    rw [ran]
    exact (deadKept_exec afterKept (same.trans unknowns) ops).2
  have search : later.shell.deadIndex id = none
      ↔ ¬ (id ≠ 0
        ∧ (maxDeadSpawnIDs - 1 ≤ w.shell.cntDeadSpawnIDs ∨ id ∈ w.shell.deadSpawnID
          ∨ 0 < ops.countP ZoneOp.deletion)) := by
    by_cases live : id = 0
    · exact iff_of_true (SpawnShell.deadIndex_eq_none.mpr (.inl live)) fun h => h.1 live
    · have start : SpawnShell.Buried w.shell id 0
          (step (.shell (.deleteSpawn id.toUInt32)) w).shell := by
        rw [deleted]
        exact kept.buried id
      have buried := buried_exec kept live start spares (by rw [maxDeadSpawnIDs] at few ⊢; omega)
      rw [Nat.zero_add, ← ran] at buried
      rw [and_iff_right live, ← not_iff_not, not_not, ← ne_eq, buried.found kept live]
      rw [maxDeadSpawnIDs]
      exact or_congr (by omega) Iff.rfl
  rw [SpawnShell.createsUnknown_iff laterUnknowns, search, not_and_or, not_and_or, not_not,
    ne_eq, not_not]

/-- A spawn that stands still at the origin. -/
def still : Movement :=
  { x := 0, y := 0, z := 0, xVel := 0, yVel := 0, zVel := 0, heading := 0, deltaHeading := 0
    animation := 0 }

theorem recentlyDeleted_another
    : ¬ (Machine.exec step (step (.shell (.deleteSpawn (5 : UInt16).toUInt32)) (fresh newcomer))
        [.shell (.deleteSpawn 9)]).shell.CreatesUnknown 5 still := by
  have reached : (fresh newcomer).Reached := ⟨_, _, _, [], rfl⟩
  have spares : Machine.Permits step (ZoneOp.Spares 5)
      (step (.shell (.deleteSpawn (5 : UInt16).toUInt32)) (fresh newcomer))
      [.shell (.deleteSpawn 9)] :=
    ⟨⟨fun clears => clears, fun names => names⟩, trivial⟩
  have few : [ZoneOp.shell (.deleteSpawn 9)].countP ZoneOp.deletion ≤ maxDeadSpawnIDs - 1 := by
    decide
  exact (recentlyDeleted_iff reached rfl spares few still).mpr
    (.inr (.inr ⟨by decide, .inr (.inr (by decide))⟩))

/-- The first spawn that is deleted is back with its next position update. -/
theorem not_recentlyDeleted
    : (Machine.exec step (fresh newcomer) [.shell (.deleteSpawn 5)]).shell.CreatesUnknown 5
      still := by
  apply (SpawnShell.createsUnknown_iff rfl still).mpr
  exact ⟨by decide, rfl, by decide⟩

end ZoneSession

end Scry
