import Scry.Spells.SpellShell

/-! A live-tailing session that follows the spell shell. Each signal of the shell runs a slot of
the session at once, and what the slot sends is the list as it is at that moment; outside of a
replay the effects are sent once for a burst of signals, when a timer without delay fires.
-/

namespace Scry

/-- The fields of a buff on the wire. -/
structure BuffView where
  spellId : UInt32
  spellName : String
  durationS : Int32
  casterId : UInt16
  casterName : String
  targetId : UInt16
  targetName : String
  isSong : Bool
  beneficial : Bool
  icon : UInt16
  deriving DecidableEq

def fillBuff (s : SpellItem) : BuffView :=
  { spellId := s.spellId
    spellName := s.spellName
    durationS := s.duration
    casterId := s.casterId
    casterName := s.casterName
    targetId := s.targetId
    targetName := s.targetName
    isSong := s.isSong
    beneficial := s.beneficial
    icon := s.icon }

/-- The two lists of the shell. -/
inductive SpellKind
  | buffs
  | effects
  deriving DecidableEq

/-- `m_spellList` or `m_targetEffects`. -/
def SpellShell.items (s : SpellShell) : SpellKind → List SpellItem
  | .buffs => s.spellList
  | .effects => s.targetEffects

def SpellShell.setItems (s : SpellShell) (kind : SpellKind) (items : List SpellItem) : SpellShell :=
  match kind with
  | .buffs => { s with spellList := items }
  | .effects => { s with targetEffects := items }

/-- What the shell signals. -/
inductive SpellSignal
  | addSpell
  | delSpell
  | changeSpell
  | clearSpells
  | addEffect
  | delEffect
  | changeEffect
  | clearEffects

/-- The list whose slot a signal is connected to. -/
def SpellSignal.kind : SpellSignal → SpellKind
  | .addSpell | .delSpell | .changeSpell | .clearSpells => .buffs
  | .addEffect | .delEffect | .changeEffect | .clearEffects => .effects

/-- A `BuffsUpdate` or a `SpawnEffectsUpdate`. -/
structure SpellUpdate where
  kind : SpellKind
  buffs : List BuffView
  deriving DecidableEq

/-- The shell with a session that follows it; `sent` is what the session has sent, in order. -/
structure SpellSession where
  shell : SpellShell
  deterministic : Bool
  effectsDirty : Bool
  sent : List SpellUpdate
  deriving DecidableEq

namespace SpellSession

/-- A step of the shell that signals nothing. -/
def modify (x : SpellSession) (f : SpellShell → SpellShell) : SpellSession :=
  { x with shell := f x.shell }

-----------------------------------------------------------------------------------------
-- The slots of the session
-----------------------------------------------------------------------------------------

/-- `sendBuffsUpdate` and `sendEffectsUpdate`. -/
def sendUpdate (x : SpellSession) (kind : SpellKind) : SpellSession :=
  { x with sent := x.sent ++ [⟨kind, (x.shell.items kind).map fillBuff⟩] }

def onBuffsChanged (x : SpellSession) : SpellSession := x.sendUpdate .buffs

def onEffectsChanged (x : SpellSession) : SpellSession :=
  if x.deterministic then x.sendUpdate .effects
  else if x.effectsDirty then x
  else { x with effectsDirty := true }

/-- What runs when the timer fires that `onEffectsChanged` started. -/
def fireEffects (x : SpellSession) : SpellSession :=
  if x.effectsDirty then { x with effectsDirty := false }.sendUpdate .effects else x

/-- A signal runs its slot before the shell goes on. -/
def emit (x : SpellSession) (signal : SpellSignal) : SpellSession :=
  match signal.kind with
  | .buffs => x.onBuffsChanged
  | .effects => x.onEffectsChanged

/-- A session that subscribes. -/
def subscribe (deterministic : Bool) (s : SpellShell) : SpellSession :=
  let x := sendUpdate ⟨s, deterministic, false, []⟩ .buffs
  if s.targetEffects ≠ [] then x.sendUpdate .effects else x

-----------------------------------------------------------------------------------------
-- The operations with their signals
-----------------------------------------------------------------------------------------

def clear (x : SpellSession) : SpellSession :=
  let x := x.emit .clearSpells
  let x := x.modify fun s => { s with lastPlayerSpell := none, spellList := [] }
  let x :=
    if x.shell.targetEffects ≠ [] then
      (x.emit .clearEffects).modify fun s => { s with targetEffects := [] }
    else x
  x.modify SpellShell.stop

def deleteSpell (x : SpellSession) (item : Option Nat) : SpellSession :=
  match item with
  | none => x
  | some address => (x.modify fun s => s.deleteSpell (some address)).emit .delSpell

def deleteSpells (x : SpellSession) (items : List SpellItem) : SpellSession :=
  items.foldl (fun x i => x.deleteSpell (some i.address)) x

def buffLoad (x : SpellSession) (w : SpellWorld) (spellid : UInt32) (ticks : Int32)
    : SpellSession :=
  let load := fun i : SpellItem =>
    i.update w spellid (w.spell spellid) (ticks * 6) 0 "Buff" w.playerId w.playerName
  match x.shell.findSpell spellid w.playerId w.playerName with
  | some item => (x.modify (·.setSpell item.address load)).emit .changeSpell
  | none => (x.modify fun s => (s.appendSpell load).start).emit .addSpell

def applyBuff (x : SpellSession) (w : SpellWorld) (spellId : UInt32) (owner : UInt16)
    (duration : Int32) (slot : UInt8)
    : SpellSession :=
  let setSlot := fun i : SpellItem =>
    if slot ≠ 0xff then { i with buffSlot := slot.toUInt32.toInt32 } else i
  match x.shell.findSpell spellId owner "" with
  | some item =>
      (x.modify (·.setSpell item.address fun i => setSlot { i with duration })).emit .changeSpell
  | none =>
      (x.modify fun s =>
        (s.appendSpell fun i =>
          setSlot (i.update w spellId (w.spell spellId) duration 0 "" owner "")).start).emit
        .addSpell

def buff (x : SpellSession) (w : SpellWorld) (fromClient : Bool) (out : Option BuffRecord)
    : SpellSession :=
  if fromClient then x
  else
    match out with
    | none => x
    | some out =>
        let compact := out.form = 3
        if ¬ compact ∧ w.playerId ≠ 0 ∧ out.spawnId ≠ w.playerId.toUInt32 then x
        else if out.spellId = 0xffffffff ∨ out.spellId = 0 then x
        else
          let owner := if compact then w.playerId else out.spawnId.toUInt16
          if compact then x
          else if out.form = 0 then
            x.deleteSpell ((x.shell.findSpell out.spellId owner "").map (·.address))
          else if out.form = 1 then
            let duration := ((w.spell out.spellId).elim 0 fun spell =>
              (spell.calcDuration w.playerLevel).toInt32 * 6)
            if duration ≤ 0 then x else x.applyBuff w out.spellId owner duration out.slot
          else
            let duration := out.durTicks.toInt32 * 6
            if duration ≤ 0 then x else x.applyBuff w out.spellId owner duration 0xff

/-- One entry of a mob's list. -/
def mobEntry (w : SpellWorld) (mobId : UInt16) (mobName : String) (r : SpellSession × Bool)
    (e : BuffEntry)
    : SpellSession × Bool :=
  if ¬ BuffEntry.IsSpell e.spellId then r
  else
    match r.1.shell.findEffect e.spellId mobId with
    | some eff => ((r.1.modify (·.setEffect eff.address e.refresh)).emit .changeEffect, r.2)
    | none => ((r.1.modify (·.appendEffect (e.fill w mobId mobName))).emit .addEffect, true)

/-- An effect that is no longer listed goes. -/
def removeEffect (x : SpellSession) (i : SpellItem) : SpellSession :=
  (x.modify fun s =>
    { s with targetEffects := s.targetEffects.eraseP fun e => e.address = i.address }).emit
    .delEffect

def mobBuffList (x : SpellSession) (w : SpellWorld) (mobId : UInt16) (mobName : String)
    (entries : List BuffEntry)
    : SpellSession :=
  let merged := entries.foldl (mobEntry w mobId mobName) (x, false)
  let x := merged.1
  let gone := x.shell.targetEffects.filter (SpellShell.isReaped w mobId entries)
  let x := gone.foldl removeEffect x
  if merged.2 then x.modify SpellShell.start else x

def dropOrphans (x : SpellSession) (w : SpellWorld) : SpellSession :=
  if w.playerName ≠ "" then x.deleteSpells (x.shell.spellList.filter (SpellShell.isOrphan w)) else x

/-- One entry of the player's list. -/
def playerEntry (w : SpellWorld) (r : SpellSession × Bool) (e : BuffEntry) : SpellSession × Bool :=
  if ¬ BuffEntry.IsSpell e.spellId then r
  else
    match r.1.shell.findSpell e.spellId w.playerId w.playerName with
    | some item => ((r.1.modify (·.setSpell item.address e.refresh)).emit .changeSpell, r.2)
    | none =>
        ((r.1.modify (·.appendSpell (e.fill w w.playerId w.playerName))).emit .addSpell, true)

def playerBuffList (x : SpellSession) (w : SpellWorld) (entries : List BuffEntry)
    : SpellSession :=
  let merged := entries.foldl (playerEntry w) (x.dropOrphans w, false)
  let x := merged.1.deleteSpells
    (merged.1.shell.spellList.filter (SpellShell.isStale entries))
  if merged.2 then x.modify SpellShell.start else x

def buffList (x : SpellSession) (w : SpellWorld) (fromClient : Bool) (entries : List BuffEntry)
    : SpellSession :=
  if fromClient then x
  else
    match entries with
    | [] => x
    | first :: _ =>
        match SpellShell.buffListMob w first.spawnId with
        | some mobName => x.mobBuffList w first.spawnId.toUInt16 mobName entries
        | none => x.playerBuffList w entries

def action (x : SpellSession) (w : SpellWorld) (out : Option ActionRecord) : SpellSession :=
  match out with
  | none => x
  | some a =>
      if a.type ≠ 0xe7 then x
      else
        let spell := a.spell.toUInt32
        let targetName := SpellShell.nameOf w a.target
        let duration := SpellShell.tableDuration w a.spell a.level
        let cast := fun (casterName : String) (i : SpellItem) =>
          i.update w spell (w.spell spell) duration a.source casterName a.target targetName
        match x.shell.findSpell spell a.target targetName with
        | some item =>
            (x.modify (·.setSpell item.address (cast (SpellShell.nameOf w a.source)))).emit
              .changeSpell
        | none =>
            if a.target = w.playerId then
              if duration > 0 then
                (x.modify fun s =>
                  (s.appendSpell (cast (SpellShell.nameOf w a.source))).start).emit .addSpell
              else x
            else if a.source = w.playerId ∧ a.target ≠ 0 then
              if duration ≤ 0 then x
              else
                match x.shell.findEffect spell a.target with
                | some eff =>
                    (x.modify (·.setEffect eff.address (cast w.playerName))).emit .changeEffect
                | none =>
                    (x.modify fun s => (s.appendEffect (cast w.playerName)).start).emit .addEffect
            else x

def simpleMessage (x : SpellSession) (messageFormat : UInt32) : SpellSession :=
  match x.shell.lastPlayerSpell with
  | none => x
  | some last =>
      if SpellShell.endingFormats.contains messageFormat then
        (x.deleteSpell (some last)).modify fun s => { s with lastPlayerSpell := none }
      else x

/-- The items change without a signal. -/
def spellMessage (x : SpellSession) (str : List Char) : SpellSession :=
  x.modify (·.spellMessage str)

/-- The items of the list change without a signal, and the effects are there when theirs is
sent.
-/
def zoneChanged (x : SpellSession) : SpellSession :=
  let x := x.modify fun s =>
    { s with
      lastPlayerSpell := none
      spellList := s.spellList.map fun i => { i with targetId := 0, casterId := 0 } }
  if x.shell.targetEffects ≠ [] then
    (x.emit .clearEffects).modify fun s =>
      let s := { s with targetEffects := [] }
      if s.spellList = [] then s.stop else s
  else x

/-- What a loop over a list does with an item. -/
inductive Visit
  | keep
  | change (i : SpellItem)
  | erase

/-- What a visit leaves of an item. -/
def leaves (visit : SpellItem → Visit) (i : SpellItem) : Option SpellItem :=
  match visit i with
  | .keep => some i
  | .change j => some j
  | .erase => none

/-- A loop over a list of the shell, of which it has been through `done`. Each change and each
erased item is signalled before the loop goes on.
-/
def loop (kind : SpellKind) (changed deleted : SpellSignal) (visit : SpellItem → Visit)
    (x : SpellSession) (done : List SpellItem)
    : List SpellItem → SpellSession
  | [] => x
  | i :: rest =>
      match visit i with
      | .keep => loop kind changed deleted visit x (done ++ [i]) rest
      | .change j =>
          loop kind changed deleted visit
            ((x.modify (·.setItems kind (done ++ j :: rest))).emit changed) (done ++ [j]) rest
      | .erase =>
          loop kind changed deleted visit
            ((x.modify (·.setItems kind (done ++ rest))).emit deleted) done rest

/-- The loop over the buffs. -/
def loopSpells (x : SpellSession) (visit : SpellItem → Visit) : SpellSession :=
  loop .buffs .changeSpell .delSpell visit x [] x.shell.spellList

/-- The loop over the effects. -/
def loopEffects (x : SpellSession) (visit : SpellItem → Visit) : SpellSession :=
  loop .effects .changeEffect .delEffect visit x [] x.shell.targetEffects

/-- The visit of a spawn that goes: what is on it is erased. -/
def visitGone (id : UInt16) (i : SpellItem) : Visit := if i.targetId = id then .erase else .keep

def killSpawn (x : SpellSession) (w : SpellWorld) (id : UInt16) : SpellSession :=
  if id = w.playerId then x.clear
  else
    let last := x.shell.lastPlayerSpell.bind fun address =>
      x.shell.spellList.find? fun i => i.address = address
    let x :=
      if last.any fun i => i.targetId = id then
        x.modify fun s => { s with lastPlayerSpell := none }
      else x
    let x := x.loopSpells (visitGone id)
    let x := x.loopEffects (visitGone id)
    if x.shell.spellList = [] ∧ x.shell.targetEffects = [] then x.modify SpellShell.stop else x

def delSpawn (x : SpellSession) (despawned : Option UInt16) : SpellSession :=
  match despawned with
  | none => x
  | some id =>
      let changed := x.shell.targetEffects.any fun i => i.targetId = id
      let x := x.loopEffects (visitGone id)
      if changed ∧ x.shell.spellList = [] ∧ x.shell.targetEffects = [] then
        x.modify SpellShell.stop
      else x

/-- The visit of the sweep. -/
def visitSweep (w : SpellWorld) (i : SpellItem) : Visit :=
  if i.isPermanent then .keep
  else
    match SpellShell.sweep w i with
    | some j => .change j
    | none => .erase

def timeout (x : SpellSession) (w : SpellWorld) : SpellSession :=
  let finished := x.shell.spellList.any fun i =>
    (SpellShell.sweep w i).isNone && x.shell.lastPlayerSpell = some i.address
  let x := if finished then x.modify fun s => { s with lastPlayerSpell := none } else x
  let x := x.loopSpells (visitSweep w)
  let x := x.loopEffects (visitSweep w)
  if x.shell.spellList = [] ∧ x.shell.targetEffects = [] then x.modify SpellShell.stop else x

/-- One operation on the shell, with what it signals. -/
def run (x : SpellSession) : SpellOp → SpellSession
  | .buffLoad w spellid ticks => x.buffLoad w spellid ticks
  | .buff w fromClient out => x.buff w fromClient out
  | .buffList w fromClient entries => x.buffList w fromClient entries
  | .action w out => x.action w out
  | .simpleMessage messageFormat => x.simpleMessage messageFormat
  | .spellMessage str => x.spellMessage str
  | .zoneChanged => x.zoneChanged
  | .killSpawn w id => x.killSpawn w id
  | .delSpawn despawned => x.delSpawn despawned
  | .deleteSpell item => x.deleteSpell item
  | .timeout w => x.timeout w
  | .clear => x.clear

end SpellSession

/-- What happens while a session follows the shell. -/
inductive SpellEvent
  | operation (op : SpellOp)
  | fire

def SpellEvent.operation? : SpellEvent → Option SpellOp
  | .operation op => some op
  | .fire => none

/-- One event. -/
def SpellEvent.step (event : SpellEvent) (x : SpellSession) : SpellSession :=
  match event with
  | .operation op => x.run op
  | .fire => x.fireEffects

-----------------------------------------------------------------------------------------
-- The shell underneath
-----------------------------------------------------------------------------------------

namespace SpellSession

variable {x : SpellSession} {w : SpellWorld}

@[simp]
theorem modify_shell (f : SpellShell → SpellShell) : (x.modify f).shell = f x.shell := rfl

@[simp]
theorem onEffectsChanged_shell : x.onEffectsChanged.shell = x.shell := by
  rw [onEffectsChanged]
  split_ifs <;> rfl

@[simp]
theorem fireEffects_shell : x.fireEffects.shell = x.shell := by
  rw [fireEffects]
  split_ifs <;> rfl

@[simp]
theorem emit_shell (signal : SpellSignal) : (x.emit signal).shell = x.shell := by
  cases signal
  all_goals first | rfl | exact onEffectsChanged_shell

theorem foldl_shell {β : Type} {f : SpellSession → β → SpellSession} {g : SpellShell → β → SpellShell}
    (one : ∀ x i, (f x i).shell = g x.shell i) (items : List β)
    : (items.foldl f x).shell = items.foldl g x.shell :=
  (List.foldl_hom SpellSession.shell fun x i => (one x i).symm).symm

/-- A fold over the entries of a list, with the flag of whether there is a new item. -/
theorem foldl_entries_shell {f : SpellSession × Bool → BuffEntry → SpellSession × Bool}
    {g : SpellShell × Bool → BuffEntry → SpellShell × Bool}
    (one : ∀ r e, ((f r e).1.shell, (f r e).2) = g (r.1.shell, r.2) e) (entries : List BuffEntry)
    (r : SpellSession × Bool)
    : ((entries.foldl f r).1.shell, (entries.foldl f r).2)
      = entries.foldl g (r.1.shell, r.2) :=
  (List.foldl_hom (fun r : SpellSession × Bool => (r.1.shell, r.2))
    fun r e => (one r e).symm).symm

theorem clear_shell : x.clear.shell = x.shell.clear := by
  by_cases effects : x.shell.targetEffects = []
  · simp [clear, SpellShell.clear, effects]
  · simp [clear, SpellShell.clear, effects]

theorem deleteSpell_shell (x : SpellSession) (item : Option Nat)
    : (x.deleteSpell item).shell = x.shell.deleteSpell item := by
  cases item with
  | none => rfl
  | some address => exact emit_shell _

theorem deleteSpells_shell (items : List SpellItem)
    : (x.deleteSpells items).shell = x.shell.deleteSpells items :=
  foldl_shell (fun x i => deleteSpell_shell x (some i.address)) items

theorem buffLoad_shell (spellid : UInt32) (ticks : Int32)
    : (x.buffLoad w spellid ticks).shell = x.shell.buffLoad w spellid ticks := by
  simp only [buffLoad, SpellShell.buffLoad]
  cases x.shell.findSpell spellid w.playerId w.playerName with
  | some item => exact emit_shell _
  | none => exact emit_shell _

theorem applyBuff_shell (spellId : UInt32) (owner : UInt16) (duration : Int32) (slot : UInt8)
    : (x.applyBuff w spellId owner duration slot).shell
      = x.shell.applyBuff w spellId owner duration slot := by
  simp only [applyBuff, SpellShell.applyBuff]
  cases x.shell.findSpell spellId owner "" with
  | some item => exact emit_shell _
  | none => exact emit_shell _

theorem buff_shell (fromClient : Bool) (out : Option BuffRecord)
    : (x.buff w fromClient out).shell = x.shell.buff w fromClient out := by
  cases out with
  | none => simp [buff, SpellShell.buff]
  | some out =>
      simp only [buff, SpellShell.buff, apply_ite SpellSession.shell, deleteSpell_shell,
        applyBuff_shell]

theorem mobEntry_shell (mobId : UInt16) (mobName : String) (r : SpellSession × Bool)
    (e : BuffEntry)
    : ((mobEntry w mobId mobName r e).1.shell, (mobEntry w mobId mobName r e).2)
      = SpellShell.mobEntry w mobId mobName (r.1.shell, r.2) e := by
  simp only [mobEntry, SpellShell.mobEntry]
  by_cases spell : BuffEntry.IsSpell e.spellId
  · cases r.1.shell.findEffect e.spellId mobId with
    | some eff => simp [spell]
    | none => simp [spell]
  · simp [spell]

theorem removeEffects_shell (gone : List SpellItem)
    : (gone.foldl removeEffect x).shell
      = { x.shell with
          targetEffects := gone.foldl (fun effects i => effects.eraseP fun e =>
            e.address = i.address) x.shell.targetEffects } := by
  induction gone generalizing x with
  | nil => rfl
  | cons i rest ih =>
      rw [List.foldl_cons, ih, removeEffect, emit_shell]
      rfl

theorem mobBuffList_shell (mobId : UInt16) (mobName : String) (entries : List BuffEntry)
    : (x.mobBuffList w mobId mobName entries).shell
      = x.shell.mobBuffList w mobId mobName entries := by
  have merged := foldl_entries_shell (mobEntry_shell (w := w) mobId mobName) entries (x, false)
  simp only [mobBuffList, SpellShell.mobBuffList, ← merged, apply_ite SpellSession.shell,
    modify_shell, removeEffects_shell]

theorem dropOrphans_shell : (x.dropOrphans w).shell = x.shell.dropOrphans w := by
  simp only [dropOrphans, SpellShell.dropOrphans, apply_ite SpellSession.shell,
    deleteSpells_shell]

theorem playerEntry_shell (r : SpellSession × Bool) (e : BuffEntry)
    : ((playerEntry w r e).1.shell, (playerEntry w r e).2)
      = SpellShell.playerEntry w (r.1.shell, r.2) e := by
  simp only [playerEntry, SpellShell.playerEntry]
  by_cases spell : BuffEntry.IsSpell e.spellId
  · cases r.1.shell.findSpell e.spellId w.playerId w.playerName with
    | some item => simp [spell]
    | none => simp [spell]
  · simp [spell]

theorem playerBuffList_shell (entries : List BuffEntry)
    : (x.playerBuffList w entries).shell = x.shell.playerBuffList w entries := by
  have merged := foldl_entries_shell (playerEntry_shell (w := w)) entries (x.dropOrphans w, false)
  rw [dropOrphans_shell] at merged
  simp only [playerBuffList, SpellShell.playerBuffList, ← merged, apply_ite SpellSession.shell,
    modify_shell, deleteSpells_shell]

theorem buffList_shell (fromClient : Bool) (entries : List BuffEntry)
    : (x.buffList w fromClient entries).shell = x.shell.buffList w fromClient entries := by
  cases entries with
  | nil => simp [buffList, SpellShell.buffList]
  | cons first rest =>
      simp only [buffList, SpellShell.buffList, apply_ite SpellSession.shell]
      cases SpellShell.buffListMob w first.spawnId with
      | some mobName => simp only [mobBuffList_shell]
      | none => simp only [playerBuffList_shell]

theorem action_shell (out : Option ActionRecord)
    : (x.action w out).shell = x.shell.action w out := by
  cases out with
  | none => rfl
  | some a =>
      simp only [action, SpellShell.action, apply_ite SpellSession.shell]
      congr 1
      cases x.shell.findSpell a.spell.toUInt32 a.target (SpellShell.nameOf w a.target) with
      | some item => simp
      | none =>
          simp only [apply_ite SpellSession.shell, emit_shell, modify_shell]
          cases x.shell.findEffect a.spell.toUInt32 a.target with
          | some eff => simp
          | none => simp

theorem simpleMessage_shell (messageFormat : UInt32)
    : (x.simpleMessage messageFormat).shell = x.shell.simpleMessage messageFormat := by
  simp only [simpleMessage, SpellShell.simpleMessage]
  cases x.shell.lastPlayerSpell with
  | none => rfl
  | some last =>
      simp only [apply_ite SpellSession.shell, modify_shell, deleteSpell_shell,
        List.contains_iff_mem]

theorem zoneChanged_shell : x.zoneChanged.shell = x.shell.zoneChanged := by
  by_cases effects : x.shell.targetEffects = []
  · simp [zoneChanged, SpellShell.zoneChanged, effects]
  · simp [zoneChanged, SpellShell.zoneChanged, effects]

theorem setItems_items (s : SpellShell) (kind : SpellKind) : s.setItems kind (s.items kind) = s := by
  cases kind <;> rfl

@[simp]
theorem setItems_setItems (s : SpellShell) (kind : SpellKind) (first last : List SpellItem)
    : (s.setItems kind first).setItems kind last = s.setItems kind last := by
  cases kind <;> rfl

@[simp]
theorem items_setItems (s : SpellShell) (kind : SpellKind) (items : List SpellItem)
    : (s.setItems kind items).items kind = items := by
  cases kind <;> rfl

/-- A loop leaves of its list what its visits leave of the items, by induction on the items that
are still to come.
-/
theorem loop_shell {kind : SpellKind} {changed deleted : SpellSignal} {visit : SpellItem → Visit}
    {done rest : List SpellItem} (there : x.shell.items kind = done ++ rest)
    : (loop kind changed deleted visit x done rest).shell
      = x.shell.setItems kind (done ++ rest.filterMap (leaves visit)) := by
  induction rest generalizing x done with
  | nil => rw [List.filterMap_nil, ← there, setItems_items]; rfl
  | cons i rest ih =>
      cases visited : visit i with
      | keep =>
          have left : leaves visit i = some i := by rw [leaves, visited]
          rw [List.filterMap_cons_some left]
          simp only [loop, visited]
          rw [ih (by simp [there])]
          simp
      | change j =>
          have left : leaves visit i = some j := by rw [leaves, visited]
          rw [List.filterMap_cons_some left]
          simp only [loop, visited]
          rw [ih (by simp)]
          simp
      | erase =>
          have left : leaves visit i = none := by rw [leaves, visited]
          rw [List.filterMap_cons_none left]
          simp only [loop, visited]
          rw [ih (by simp)]
          simp

theorem loopSpells_shell (visit : SpellItem → Visit)
    : (x.loopSpells visit).shell
      = { x.shell with
          spellList := x.shell.spellList.filterMap (leaves visit) } :=
  loop_shell rfl

theorem loopEffects_shell (visit : SpellItem → Visit)
    : (x.loopEffects visit).shell
      = { x.shell with
          targetEffects := x.shell.targetEffects.filterMap (leaves visit) } :=
  loop_shell rfl

theorem filterMap_visitGone (id : UInt16) (items : List SpellItem)
    : items.filterMap (leaves (visitGone id))
      = items.filter fun i => i.targetId ≠ id := by
  rw [← List.filterMap_eq_filter]
  refine List.filterMap_congr fun i _ => ?_
  by_cases gone : i.targetId = id
  · simp [visitGone, leaves, gone, Option.guard]
  · simp [visitGone, leaves, gone, Option.guard]

theorem filterMap_visitSweep (w : SpellWorld) (items : List SpellItem)
    : items.filterMap (leaves (visitSweep w))
      = items.filterMap (SpellShell.sweep w) := by
  refine List.filterMap_congr fun i _ => ?_
  by_cases permanent : i.isPermanent = true
  · simp [visitSweep, leaves, SpellShell.sweep, permanent]
  · cases swept : SpellShell.sweep w i with
    | some j => simp [visitSweep, leaves, permanent, swept]
    | none => simp [visitSweep, leaves, permanent, swept]

theorem killSpawn_shell (id : UInt16)
    : (x.killSpawn w id).shell = x.shell.killSpawn w id := by
  simp only [killSpawn, SpellShell.killSpawn, apply_ite SpellSession.shell, clear_shell,
    modify_shell, loopSpells_shell, loopEffects_shell, filterMap_visitGone]

theorem delSpawn_shell (despawned : Option UInt16)
    : (x.delSpawn despawned).shell = x.shell.delSpawn despawned := by
  cases despawned with
  | none => rfl
  | some id =>
      simp only [delSpawn, SpellShell.delSpawn, apply_ite SpellSession.shell, modify_shell,
        loopEffects_shell, filterMap_visitGone]

theorem timeout_shell : (x.timeout w).shell = x.shell.timeout w := by
  simp only [timeout, SpellShell.timeout, apply_ite SpellSession.shell, modify_shell,
    loopSpells_shell, loopEffects_shell, filterMap_visitSweep]

/-- What a session sees of an operation is the operation. -/
theorem run_shell (op : SpellOp) : (x.run op).shell = op.run x.shell := by
  cases op with
  | buffLoad w spellid ticks => exact buffLoad_shell spellid ticks
  | buff w fromClient out => exact buff_shell fromClient out
  | buffList w fromClient entries => exact buffList_shell fromClient entries
  | action w out => exact action_shell out
  | simpleMessage messageFormat => exact simpleMessage_shell messageFormat
  | spellMessage str => rfl
  | zoneChanged => exact zoneChanged_shell
  | killSpawn w id => exact killSpawn_shell id
  | delSpawn despawned => exact delSpawn_shell despawned
  | deleteSpell item => exact deleteSpell_shell x item
  | timeout w => exact timeout_shell
  | clear => exact clear_shell

end SpellSession

end Scry
