import Scry.Spawns.PlayerOnce

/-! The dispatch of the eql backend, as far as it decides which spawn is the player.
The packets come decoded; which id is the player's own is for a tracker to say that the backend
brings along, and the handlers apply its verdicts.
-/

namespace Scry

/-- The side a packet comes from. -/
inductive Dir
  | client
  | server
  deriving DecidableEq

/-- A decoded stat packet, or the tracker's verdict on one. -/
structure SelfStat where
  isSelf : Bool
  hasHp : Bool
  hpCur : Int64
  hpMax : Int64
  hasMana : Bool
  hasEnd : Bool
  deriving DecidableEq

/-- `EqlSelfTracker`, which is not part of the source: its calls, with the state after each. -/
structure EqlSelfTracker (τ : Type) where
  reset : τ → τ
  observeSelfPos : τ → UInt16 → UInt8 × τ
  observeSpawn : τ → String → String → UInt16 → UInt8 × τ
  takeRetiredProvisional : τ → τ
  takePendingVitals : τ → SelfStat × τ
  observeStatSync : τ → UInt16 → SelfStat → SelfStat × τ

/-- Once reset, the tracker accepts the first self-position report it sees. -/
def EqlSelfTracker.AcceptsFirst {τ : Type} (tracker : EqlSelfTracker τ) : Prop :=
  ∀ t id, (tracker.observeSelfPos (tracker.reset t) id).1 = 1

/-- What `profile` takes from its packet for the player. -/
structure EqlProfile where
  name : String
  race : UInt16
  class_ : UInt8
  level : UInt8
  classMask : UInt32
  deriving DecidableEq

namespace Player

/-- `setPlayerName`. -/
def setPlayerName (p : Player) (name : String) : Player :=
  { p.setName name with realName := name }

/-- `setIdentity`. -/
def setIdentity (p : Player) (race : UInt16) (classVal level : UInt8) : Player :=
  { p with
    useDefaults := false
    base := { p.base with npc := SPAWN_SELF, race, classVal, level := level.toUInt32.toInt32 } }

/-- `applySelfPosition`, with no movement, as the dispatch calls it. -/
def applySelfPosition (p : Player) (x y z : Int16) (heading : UInt16) : Player :=
  { p with
    headingDegrees := (360 - (heading.toNat * 360) >>> 11) % 360
    base :=
      { p.base with
        x, y, z
        deltaX := 0
        deltaY := 0
        deltaZ := 0
        heading := (heading >>> 3).toUInt8.toInt8
        deltaHeading := 0 } }

end Player

/-- The handlers of the spawn shell that the backend wires to opcodes. -/
def ShellOp.wiredEql : ShellOp → Bool
  | .newGroundItem _ | .removeGroundItem _ | .newDoorSpawn _ | .updateSpawnLock _ _ _
  | .updateMobHealth _ _ | .deleteSpawn _ | .renameSpawn _ _ _ | .illusionSpawn _ _ _
  | .shroudSpawn _ _ _ | .removeSpawn _ | .npcMoveUpdate _ _ | .corpseLoc _ _ _ _ => true
  | _ => false

/-- A packet of the backend, decoded. -/
inductive EqlPacket
  | profile (dir : Dir) (p : EqlProfile)
  | zoneChange
  | newZone (dir : Dir)
  | enterWorld (dir : Dir)
  | playerUpdateSelf (dir : Dir) (spawnId : UInt16) (x y z : Int16) (heading : UInt16)
  | playerUpdateOther (dir : Dir) (spawnId : UInt16) (x y z : Int32)
  | death (dir : Dir) (spawnId killerId : UInt32)
  | spawn (dir : Dir) (spawnId : UInt16) (r : SpawnRecord)
  | loadoutSwap (dir : Dir) (spawnId : UInt32) (race : UInt16) (class_ level : UInt8)
  | mobUpdate (dir : Dir) (spawnId : UInt16) (x y z : Int16)
  | statSync (dir : Dir) (spawnId : UInt16) (out : SelfStat)
  | spawnAppearance (spawnId kind parameter : UInt32)
  | shell (op : ShellOp) (wired : op.wiredEql = true)

/-- `EqlDispatch`, with the shell and the player it works on. The signals these emit go to
sessions and are not kept.
-/
structure EqlDispatch (τ : Type) where
  shell : SpawnShell
  tracker : τ
  awaitingRespawnFromId : UInt32
  sessionEstablished : Bool

namespace EqlDispatch

variable {τ : Type} (tracker : EqlSelfTracker τ)

/-- A new dispatch. -/
def fresh (sh : SpawnShell) (t : τ) : EqlDispatch τ :=
  { shell := sh, tracker := t, awaitingRespawnFromId := 0, sessionEstablished := false }

/-- A change to the player that keeps the shell. -/
def withPlayer (e : EqlDispatch τ) (f : Player → Player) : EqlDispatch τ :=
  { e with shell := { e.shell with player := f e.shell.player } }

/-- `applySelfVitals`: a maximum of zero would blank the bar. -/
def applySelfVitals (e : EqlDispatch τ) (v : SelfStat) : EqlDispatch τ :=
  if !(v.hasHp || v.hasMana || v.hasEnd) then e
  else
    let out : Vitals :=
      { haveHP := v.hasHp && v.hpMax.toUInt64.toUInt32 != 0
        hpCur := v.hpCur.toUInt64.toUInt32
        hpMax := v.hpMax.toUInt64.toUInt32
        haveMana := v.hasMana
        haveEnd := v.hasEnd }
    { e with shell := (e.shell.setVitals out).1 }

/-- `profile`, as far as the spawns and the player's identity go. -/
def profile (e : EqlDispatch τ) (dir : Dir) (p : EqlProfile) : EqlDispatch τ :=
  if dir ≠ .server then e
  else
    let e := { e with shell := e.shell.clear.1 }
    let e := e.withPlayer (·.setID 0)
    let e := { e with tracker := tracker.reset e.tracker }
    let e := if p.name = "" then e else e.withPlayer (·.setPlayerName p.name)
    e.withPlayer fun player =>
      let player := player.setIdentity p.race p.class_ p.level
      { player with base := { player.base with classMask := p.classMask } }

/-- `zoneChange`. -/
def zoneChange (e : EqlDispatch τ) : EqlDispatch τ :=
  { e with shell := { e.shell with isZoning := true } }

/-- `newZone`. -/
def newZone (e : EqlDispatch τ) (dir : Dir) : EqlDispatch τ :=
  if dir ≠ .server then e
  else { e with shell := { e.shell with isZoning := false }, sessionEstablished := true }

/-- `playerUpdateSelf`. -/
def playerUpdateSelf (e : EqlDispatch τ) (dir : Dir) (spawnId : UInt16) (x y z : Int16)
    (heading : UInt16)
    : EqlDispatch τ :=
  if dir ≠ .client then e
  else
    let (verdict, t) := tracker.observeSelfPos e.tracker spawnId
    let e := { e with tracker := t }
    let e :=
      if verdict = 1 ∧ e.shell.player.id = 0 then
        { e with shell := (e.shell.setPlayerID spawnId).1 }
      else e
    if e.shell.player.id = 0 then e
    else e.withPlayer (·.applySelfPosition x y z heading)

/-- `death`. -/
def death (e : EqlDispatch τ) (dir : Dir) (spawnId killerId : UInt32) : EqlDispatch τ :=
  if dir ≠ .server then e
  else if spawnId = e.shell.player.id.toUInt32 then
    let e := { e with awaitingRespawnFromId := spawnId }
    let e := e.withPlayer (·.setID 0)
    { e with tracker := tracker.reset e.tracker }
  else { e with shell := (e.shell.killSpawn spawnId killerId).1 }

/-- `enterWorld`. -/
def enterWorld (e : EqlDispatch τ) (dir : Dir) : EqlDispatch τ :=
  if dir ≠ .client then e
  else if !e.sessionEstablished then e
  else
    let oldId := e.shell.player.id.toUInt32
    let e := { e with shell := e.shell.clear.1 }
    let e := e.withPlayer (·.setID 0)
    { e with tracker := tracker.reset e.tracker, awaitingRespawnFromId := oldId }

/-- `playerUpdateOther`. -/
def playerUpdateOther (e : EqlDispatch τ) (dir : Dir) (spawnId : UInt16) (x y z : Int32)
    : EqlDispatch τ :=
  if dir ≠ .server then e
  else if spawnId = e.shell.player.id then e
  else
    { e with
      shell :=
        (e.shell.moveSpawn spawnId (x >>> 3).toInt16 (y >>> 3).toInt16 (z >>> 3).toInt16).1 }

/-- `consumeSelfSpawn`. -/
def consumeSelfSpawn (e : EqlDispatch τ) (name : String) (id : UInt16)
    : Bool × EqlDispatch τ :=
  let (routing, t) := tracker.observeSpawn e.tracker e.shell.player.realName name id
  let e := { e with tracker := t }
  if routing = 0 then (false, e)
  else
    let e :=
      if routing = 1 then
        { e with
          tracker := tracker.takeRetiredProvisional e.tracker
          shell := (e.shell.setPlayerID id).1 }
      else e
    let (vitals, t) := tracker.takePendingVitals e.tracker
    (true, { e with tracker := t }.applySelfVitals vitals)

/-- `spawn`. -/
def spawn (e : EqlDispatch τ) (dir : Dir) (spawnId : UInt16) (r : SpawnRecord)
    : EqlDispatch τ :=
  if dir ≠ .server then e
  else
    let (consumed, e) := e.consumeSelfSpawn tracker r.name spawnId
    if consumed then e else { e with shell := (e.shell.upsertSpawn spawnId r).1 }

/-- `loadoutSwap`. -/
def loadoutSwap (e : EqlDispatch τ) (dir : Dir) (spawnId : UInt32) (race : UInt16)
    (class_ level : UInt8)
    : EqlDispatch τ :=
  if dir ≠ .server then e
  else if spawnId = e.shell.player.id.toUInt32 then
    e.withPlayer (·.setIdentity race class_ level)
  else { e with shell := (e.shell.updateSpawnIdentity spawnId.toUInt16 level class_).1 }

/-- `mobUpdate`. -/
def mobUpdate (e : EqlDispatch τ) (dir : Dir) (spawnId : UInt16) (x y z : Int16)
    : EqlDispatch τ :=
  if dir ≠ .server then e else { e with shell := (e.shell.moveSpawn spawnId x y z).1 }

/-- `statSync`. -/
def statSync (e : EqlDispatch τ) (dir : Dir) (spawnId : UInt16) (out : SelfStat)
    : EqlDispatch τ :=
  if dir ≠ .server then e
  else
    let (verdict, t) := tracker.observeStatSync e.tracker spawnId out
    let e := { e with tracker := t }
    if verdict.isSelf then e.applySelfVitals verdict
    else if out.hasHp ∧ out.hpMax > 0 then
      { e with
        shell := (e.shell.updateSpawnHP spawnId out.hpCur.toInt32 out.hpMax.toInt32).1 }
    else e

/-- `spawnAppearance`. -/
def spawnAppearance (e : EqlDispatch τ) (spawnId kind parameter : UInt32) : EqlDispatch τ :=
  if kind ≠ 6 then e
  else
    { e with
      shell := (e.shell.updateSpawnAnimation spawnId.toUInt16 parameter.toUInt8).1 }

/-- The handler of a packet. -/
def handle (e : EqlDispatch τ) : EqlPacket → EqlDispatch τ
  | .profile dir p => e.profile tracker dir p
  | .zoneChange => e.zoneChange
  | .newZone dir => e.newZone dir
  | .enterWorld dir => e.enterWorld tracker dir
  | .playerUpdateSelf dir spawnId x y z heading =>
      e.playerUpdateSelf tracker dir spawnId x y z heading
  | .playerUpdateOther dir spawnId x y z => e.playerUpdateOther dir spawnId x y z
  | .death dir spawnId killerId => e.death tracker dir spawnId killerId
  | .spawn dir spawnId r => e.spawn tracker dir spawnId r
  | .loadoutSwap dir spawnId race class_ level => e.loadoutSwap dir spawnId race class_ level
  | .mobUpdate dir spawnId x y z => e.mobUpdate dir spawnId x y z
  | .statSync dir spawnId out => e.statSync tracker dir spawnId out
  | .spawnAppearance spawnId kind parameter => e.spawnAppearance spawnId kind parameter
  | .shell op _ => { e with shell := (op.run e.shell).1 }

/-- The player's id. -/
def selfId (e : EqlDispatch τ) : UInt16 := e.shell.player.id

/-- Whether a packet severs the player from its id: its own death, or a session re-entry. -/
def Severs (e : EqlDispatch τ) : EqlPacket → Prop
  | .death dir spawnId _ => dir = .server ∧ spawnId = e.selfId.toUInt32
  | .enterWorld dir => dir = .client ∧ e.sessionEstablished = true
  | _ => False

instance decidableSevers (e : EqlDispatch τ) (packet : EqlPacket) : Decidable (e.Severs packet) :=
  match packet with
  | .death _ _ _ => inferInstanceAs (Decidable (_ ∧ _))
  | .enterWorld _ => inferInstanceAs (Decidable (_ ∧ _))
  | .profile _ _ | .zoneChange | .newZone _ | .playerUpdateSelf _ _ _ _ _ _
  | .playerUpdateOther _ _ _ _ _ | .spawn _ _ _ | .loadoutSwap _ _ _ _ _ | .mobUpdate _ _ _ _ _
  | .statSync _ _ _ | .spawnAppearance _ _ _ | .shell _ _ => isFalse id

/-- The id that a packet is taken to be the player's own under. -/
def adopts (e : EqlDispatch τ) : EqlPacket → Option UInt16
  | .playerUpdateSelf .client spawnId _ _ _ _ =>
      if (tracker.observeSelfPos e.tracker spawnId).1 = 1 ∧ e.selfId = 0 then some spawnId
      else none
  | .spawn .server spawnId r =>
      if (tracker.observeSpawn e.tracker e.shell.player.realName r.name spawnId).1 = 1 then
        some spawnId
      else none
  | _ => none

-----------------------------------------------------------------------------------------
-- What a packet does to the player's id
-----------------------------------------------------------------------------------------

section SelfId

variable {sh : SpawnShell} {e : EqlDispatch τ}

theorem setPlayerID_id (sh : SpawnShell) (id : UInt16) : (sh.setPlayerID id).1.player.id = id := by
  simp only [SpawnShell.setPlayerID]
  split
  · assumption
  · rename_i other
    simp only [SpawnShell.playerChangedID, SpawnShell.andThen, if_neg other,
      SpawnShell.deleteItem_player, SpawnShell.adoptName_id]
    rfl

theorem setVitals_id (sh : SpawnShell) (v : Vitals) : (sh.setVitals v).1.player.id = sh.player.id := by
  simp only [SpawnShell.setVitals]
  split
  · rfl
  · split <;> rfl

theorem withSpawn_id (sh : SpawnShell) (key : Nat) (f : Spawn → Spawn × List SpawnSignal)
    : (sh.withSpawn key f).1.player.id = sh.player.id := by
  simp only [SpawnShell.withSpawn]
  split <;> rfl

theorem newSpawn_id (sh : SpawnShell) (d : SpawnStruct)
    : (sh.newSpawn d).1.player.id = sh.player.id := by
  simp only [SpawnShell.newSpawn]
  split_ifs
  · rfl
  · rfl
  · split <;> rfl

theorem updateSpawn_id (sh : SpawnShell) (id : UInt16) (m : Movement)
    : (sh.updateSpawn id m).1.player.id = sh.player.id := by
  simp only [SpawnShell.updateSpawn]
  split_ifs
  · rfl
  · split
    · rfl
    · split <;> rfl
  · split <;> rfl

theorem moveSpawn_id (sh : SpawnShell) (id : UInt16) (x y z : Int16)
    : (sh.moveSpawn id x y z).1.player.id = sh.player.id := by
  simp only [SpawnShell.moveSpawn]
  split_ifs
  · rfl
  · exact withSpawn_id _ _ _

theorem killSpawn_id {id : UInt32} (other : id ≠ sh.player.id.toUInt32) (killerId : UInt32)
    : (sh.killSpawn id killerId).1.player.id = sh.player.id := by
  simp only [SpawnShell.killSpawn, if_pos other]
  exact withSpawn_id _ _ _

/-- No handler of the shell that the backend wires gives the player another id. -/
theorem wired_id {op : ShellOp} (wired : op.wiredEql = true)
    : (op.run sh).1.player.id = sh.player.id := by
  cases op with
  | newGroundItem d =>
      simp only [ShellOp.run, SpawnShell.newGroundItem]
      split_ifs
      · rfl
      · split <;> rfl
  | removeGroundItem dropId =>
      simp only [ShellOp.run, SpawnShell.removeGroundItem]
      split_ifs
      · rfl
      · rw [SpawnShell.deleteItem_player]
  | newDoorSpawn d =>
      simp only [ShellOp.run, SpawnShell.newDoorSpawn]
      split <;> rfl
  | updateSpawnLock id type value =>
      simp only [ShellOp.run, SpawnShell.updateSpawnLock]
      split_ifs
      · rfl
      · exact withSpawn_id _ _ _
  | updateMobHealth id hpPercent => exact withSpawn_id _ _ _
  | deleteSpawn id => exact congrArg Player.id (SpawnShell.deleteItem_player _ _ _)
  | renameSpawn walk oldName newName =>
      simp only [ShellOp.run, SpawnShell.renameSpawn]
      split
      · exact withSpawn_id _ _ _
      · split <;> rfl
  | illusionSpawn id race gender => exact withSpawn_id _ _ _
  | shroudSpawn spawnID d profile =>
      simp only [ShellOp.run, SpawnShell.shroudSpawn]
      split_ifs
      · exact newSpawn_id sh d
      · rfl
  | removeSpawn id => exact congrArg Player.id (SpawnShell.deleteItem_player _ _ _)
  | npcMoveUpdate id m =>
      simp only [ShellOp.run, SpawnShell.npcMoveUpdate]
      split_ifs
      · rfl
      · exact updateSpawn_id sh id m
  | corpseLoc id x y z => exact withSpawn_id _ _ _
  | _ => cases wired

theorem selfId_applySelfVitals (e : EqlDispatch τ) (v : SelfStat)
    : (e.applySelfVitals v).selfId = e.selfId := by
  simp only [applySelfVitals]
  split_ifs
  · rfl
  · exact setVitals_id _ _

/-- What `setID`, `setPlayerName` and `setIdentity` do to the id. -/
theorem selfId_profile (e : EqlDispatch τ) (p : EqlProfile)
    : (e.profile tracker .server p).selfId = 0 := by
  simp only [profile, ne_eq, not_true_eq_false, if_false]
  split_ifs <;> rfl

/-- The player's id after its own position report. -/
theorem selfId_playerUpdateSelf (e : EqlDispatch τ) (spawnId : UInt16) (x y z : Int16)
    (heading : UInt16)
    : (e.playerUpdateSelf tracker .client spawnId x y z heading).selfId
      = if (tracker.observeSelfPos e.tracker spawnId).1 = 1 ∧ e.selfId = 0 then spawnId
        else e.selfId := by
  have moved (e : EqlDispatch τ)
      : (if e.shell.player.id = 0 then e
          else e.withPlayer (·.applySelfPosition x y z heading)).selfId = e.selfId := by
    split_ifs <;> rfl
  simp only [playerUpdateSelf, ne_eq, not_true_eq_false, if_false, moved]
  split_ifs with adopted same same
  · exact setPlayerID_id _ _
  · exact absurd adopted same
  · exact absurd same adopted
  · rfl

/-- The player's id after a spawn record. -/
theorem selfId_spawn (e : EqlDispatch τ) (spawnId : UInt16) (r : SpawnRecord)
    : (e.spawn tracker .server spawnId r).selfId
      = if (tracker.observeSpawn e.tracker e.shell.player.realName r.name spawnId).1 = 1 then
          spawnId
        else e.selfId := by
  have upserted (sh : SpawnShell) : (sh.upsertSpawn spawnId r).1.player.id = sh.player.id := by
    simp only [SpawnShell.upsertSpawn]
    split_ifs
    · rfl
    · split <;> rfl
  simp only [spawn, consumeSelfSpawn, ne_eq, not_true_eq_false, if_false]
  by_cases other : (tracker.observeSpawn e.tracker e.shell.player.realName r.name spawnId).1 = 0
  · simp only [other, if_true, Bool.false_eq_true, if_false]
    exact upserted _
  · simp only [other, if_false, if_true, selfId_applySelfVitals]
    split_ifs with own
    · exact setPlayerID_id _ _
    · rfl

/-- A packet by which the player is adopted sets its id; any other keeps the id or drops it. -/
theorem selfId_handle (e : EqlDispatch τ) (packet : EqlPacket)
    : match e.adopts tracker packet with
      | some id => (e.handle tracker packet).selfId = id
      | none =>
          (e.handle tracker packet).selfId = e.selfId ∨ (e.handle tracker packet).selfId = 0 := by
  cases packet with
  | profile dir p =>
      rcases dir with _ | _
      · exact .inl rfl
      · exact .inr (selfId_profile tracker e p)
  | zoneChange => exact .inl rfl
  | newZone dir => rcases dir with _ | _ <;> exact .inl rfl
  | enterWorld dir =>
      simp only [adopts, handle, enterWorld]
      split_ifs
      · exact .inl rfl
      · exact .inl rfl
      · exact .inr rfl
  | playerUpdateSelf dir spawnId x y z heading =>
      rcases dir with _ | _
      · have same := selfId_playerUpdateSelf tracker e spawnId x y z heading
        simp only [adopts, handle]
        split_ifs at same ⊢
        · exact same
        · exact .inl same
      · exact .inl rfl
  | playerUpdateOther dir spawnId x y z =>
      simp only [adopts, handle, playerUpdateOther]
      split_ifs
      · exact .inl rfl
      · exact .inl rfl
      · exact .inl (moveSpawn_id _ _ _ _ _)
  | death dir spawnId killerId =>
      simp only [adopts, handle, death]
      split_ifs
      · exact .inl rfl
      · exact .inr rfl
      · rename_i other
        exact .inl (killSpawn_id other killerId)
  | spawn dir spawnId r =>
      rcases dir with _ | _
      · exact .inl rfl
      · have same := selfId_spawn tracker e spawnId r
        simp only [adopts, handle]
        split_ifs at same ⊢
        · exact same
        · exact .inl same
  | loadoutSwap dir spawnId race class_ level =>
      simp only [adopts, handle, loadoutSwap]
      split_ifs
      · exact .inl rfl
      · exact .inl rfl
      · exact .inl (withSpawn_id _ _ _)
  | mobUpdate dir spawnId x y z =>
      simp only [adopts, handle, mobUpdate]
      split_ifs
      · exact .inl rfl
      · exact .inl (moveSpawn_id _ _ _ _ _)
  | statSync dir spawnId out =>
      simp only [adopts, handle, statSync]
      split_ifs
      · exact .inl rfl
      · exact .inl (selfId_applySelfVitals _ _)
      · exact .inl (withSpawn_id _ _ _)
      · exact .inl rfl
  | spawnAppearance spawnId kind parameter =>
      simp only [adopts, handle, spawnAppearance]
      split_ifs
      · exact .inl rfl
      · exact .inl (withSpawn_id _ _ _)
  | shell op wired => exact .inl (wired_id wired)

/-- A packet that severs the player from its id leaves it without one. -/
theorem selfId_severed {packet : EqlPacket} (severs : e.Severs packet)
    : (e.handle tracker packet).selfId = 0 ∧ e.adopts tracker packet = none := by
  cases packet with
  | death dir spawnId killerId =>
      obtain ⟨rfl, own⟩ := severs
      rw [selfId] at own
      rw [handle, death, if_neg (not_not_intro rfl), if_pos own]
      exact ⟨rfl, rfl⟩
  | enterWorld dir =>
      obtain ⟨rfl, established⟩ := severs
      rw [handle, enterWorld, if_neg (not_not_intro rfl), established]
      exact ⟨rfl, rfl⟩
  | _ => exact severs.elim

end SelfId

end EqlDispatch

/-- A dispatch and, as history, the id that the player was severed from last, until it has
another one.
-/
structure SelfHistory (τ : Type) where
  eql : EqlDispatch τ
  severed : Option UInt16

namespace SelfHistory

variable {τ : Type} (tracker : EqlSelfTracker τ)

/-- A new dispatch, without a history. -/
def fresh (sh : SpawnShell) (t : τ) : SelfHistory τ := ⟨.fresh sh t, none⟩

/-- One packet. -/
def step (packet : EqlPacket) (h : SelfHistory τ) : SelfHistory τ :=
  let after := h.eql.handle tracker packet
  { eql := after
    severed :=
      if h.eql.Severs packet ∧ h.eql.selfId ≠ 0 then some h.eql.selfId
      else if after.selfId ≠ 0 ∧ h.severed ≠ some after.selfId then none
      else h.severed }

/-- The player does not have the id that it was severed from. -/
def NotReadopted (h : SelfHistory τ) : Prop := ∀ dead, h.severed = some dead → h.eql.selfId ≠ dead

/-- What a packet must find: it is not taken to be the player's own under the id that the player
was severed from.
-/
def Respawns (h : SelfHistory τ) (packet : EqlPacket) : Prop :=
  ∀ dead, h.severed = some dead → h.eql.adopts tracker packet ≠ some dead

/-- What the player was severed from is an id. -/
theorem severed_step {h : SelfHistory τ} (packet : EqlPacket) (before : h.severed ≠ some 0)
    : (step tracker packet h).severed ≠ some 0 := by
  rw [step]
  dsimp only
  split_ifs with severs
  · exact fun same => severs.2 (Option.some.inj same)
  · exact nofun
  · exact before

/-- One packet keeps the player from its dead id exactly when it is not taken for it. -/
theorem notReadopted_step_iff {h : SelfHistory τ} (packet : EqlPacket)
    (live : h.severed ≠ some 0) (before : h.NotReadopted)
    : (step tracker packet h).NotReadopted ↔ h.Respawns tracker packet := by
  have effect := EqlDispatch.selfId_handle tracker h.eql packet
  have after := severed_step tracker packet live
  -- without an id the player has no dead one
  have without (zero : (h.eql.handle tracker packet).selfId = 0)
      : (step tracker packet h).NotReadopted := by
    intro dead severed same
    have same : 0 = dead := zero.symm.trans same
    exact after (same ▸ severed)
  cases adopted : h.eql.adopts tracker packet with
  | none =>
      have respawns : h.Respawns tracker packet := by
        intro dead _
        rw [adopted]
        exact nofun
      refine iff_of_true ?_ respawns
      rw [adopted] at effect
      by_cases severs : h.eql.Severs packet
      · exact without (EqlDispatch.selfId_severed tracker severs).1
      · rcases effect with same | zero
        · intro dead severed
          simp only [step, severs, false_and, if_false] at severed
          split_ifs at severed
          exact fun again => before dead severed (same.symm.trans again)
        · exact without zero
  | some id =>
      rw [adopted] at effect
      have unsevered : ¬ h.eql.Severs packet := fun severs =>
        nomatch adopted.symm.trans (EqlDispatch.selfId_severed tracker severs).2
      constructor
      · intro kept dead severed again
        obtain rfl := Option.some.inj (adopted.symm.trans again)
        apply kept id _ effect
        simp only [step, unsevered, false_and, if_false, effect, severed, ne_eq,
          not_true_eq_false, and_false]
      · intro respawns
        have other : h.severed ≠ some id := fun severed => respawns id severed adopted
        by_cases zero : id = 0
        · exact without (effect.trans zero)
        · intro dead severed
          simp only [step, unsevered, false_and, if_false, effect, ne_eq, zero,
            not_false_eq_true, other, and_self, if_true] at severed
          exact nomatch severed

/-- In every run of packets, the player is never adopted again under the id that it was severed
from, before it has another one, exactly when no packet is taken for its own under that id.
-/
theorem notReadopted_iff (sh : SpawnShell) (t : τ) (packets : List EqlPacket)
    : Machine.Always (step tracker) NotReadopted (fresh sh t) packets
      ↔ Machine.Permits (step tracker) (Respawns tracker) (fresh sh t) packets :=
  Machine.always_iff_permits (W := fun h => h.severed ≠ some 0) nofun nofun
    (fun _ packet => severed_step tracker packet)
    (fun _ packet live before => notReadopted_step_iff tracker packet live before)

/-- A tracker that takes the first report after a reset for the player's own, and no other. -/
def firstReport : EqlSelfTracker Bool :=
  let nothing : SelfStat :=
    { isSelf := false, hasHp := false, hpCur := 0, hpMax := 0, hasMana := false, hasEnd := false }
  { reset := fun _ => false
    observeSelfPos := fun seen _ => (if seen then 0 else 1, true)
    observeSpawn := fun seen _ _ _ => (0, seen)
    takeRetiredProvisional := id
    takePendingVitals := fun seen => (nothing, seen)
    observeStatSync := fun seen _ out => ({ out with isSelf := false }, seen) }

/-- The player dies, and a report of its old body comes late. -/
def lateReport : List EqlPacket :=
  [.playerUpdateSelf .client 5 0 0 0 0, .death .server 5 0, .playerUpdateSelf .client 5 0 0 0 0]

/-- It makes the player the dead spawn again: nothing compares the report with the stashed id. -/
theorem readopted_lateReport
    : ¬ ∀ (τ : Type) (tracker : EqlSelfTracker τ), tracker.AcceptsFirst →
        ∀ sh t packets, Machine.Always (step tracker) NotReadopted (fresh sh t) packets := by
  intro always
  have accepts : firstReport.AcceptsFirst := fun _ _ => rfl
  have kept := always Bool firstReport accepts ZoneSession.newcomer false lateReport
  exact kept.2.2.2 5 (by decide) (by decide)

end SelfHistory
end Scry
