import Mathlib.Data.List.Nodup
import Scry.Library.OrderedMap
import Scry.Library.TextStream

/-! The spell shell: the player's buffs, the effects on mobs, and the timer that counts both down.
Two lists hold the items by their addresses, and what an operation collects and then changes or
deletes, it finds again by these.
-/

namespace Scry

/-- `Spell`, as far as it is read here. -/
structure Spell where
  name : String
  isSong : Bool
  beneficial : Bool
  icon : UInt16
  targetType : UInt8
  calcDuration : UInt8 → Int16

/-- What the shell looks up elsewhere when an operation runs. -/
structure SpellWorld where
  playerId : UInt16
  playerName : String
  playerLevel : UInt8
  /-- `findID(tSpawn, id)`, with the name of the spawn. -/
  findID : UInt16 → Option String
  spell : UInt32 → Option Spell
  /-- `spell_name`, for ids that the table does not have. -/
  spellName : UInt32 → String
  /-- The preference `SpellTimer`. -/
  spellTimer : Int32

/-- `SpellItem`, at its address. -/
structure SpellItem where
  address : Nat
  spellId : UInt32 := 0
  spellName : String := ""
  duration : Int32 := 0
  casterId : UInt16 := 0
  casterName : String := ""
  targetId : UInt16 := 0
  targetName : String := ""
  buffSlot : Int32 := -1
  isSong : Bool := false
  beneficial : Bool := true
  icon : UInt16 := 0
  isPermanent : Bool := false
  deriving DecidableEq

namespace SpellItem

/-- `PERMANENT_DURATION`. -/
def permanentDuration : Int32 := -1

/-- The branch of `update` on the spell table. A spell on oneself only leaves the target id. -/
def setSpell (i : SpellItem) (w : SpellWorld) (spell : Option Spell) (targetId : UInt16)
    : SpellItem :=
  match spell with
  | some spell =>
      { i with
        spellName := spell.name
        isSong := spell.isSong
        beneficial := spell.beneficial
        icon := spell.icon
        targetId := if spell.targetType ≠ 0x06 then targetId else i.targetId }
  | none =>
      { i with spellName := w.spellName i.spellId, isSong := false, beneficial := true, targetId }

/-- A name, or what stands for none. -/
def shownName (name : String) : String := if name ≠ "" then name else "N/A"

def update (i : SpellItem) (w : SpellWorld) (spellId : UInt32) (spell : Option Spell)
    (duration : Int32) (casterId : UInt16) (casterName : String) (targetId : UInt16)
    (targetName : String)
    : SpellItem :=
  let i := { i with spellId, duration }
  let i := i.setSpell w spell targetId
  { i with casterId, casterName := shownName casterName, targetName := shownName targetName }

end SpellItem

/-- The item at an address changes. -/
def modifyAt (address : Nat) (f : SpellItem → SpellItem) (items : List SpellItem)
    : List SpellItem :=
  items.map fun i => if i.address = address then f i else i

/-- `SpellShell`; `nextAddress` is where the next item is allocated. -/
structure SpellShell where
  spellList : List SpellItem
  targetEffects : List SpellItem
  lastPlayerSpell : Option Nat
  timerActive : Bool
  nextAddress : Nat
  deriving DecidableEq

/-- What `decode_buff` returns of a recognised record. -/
structure BuffRecord where
  form : UInt8
  spawnId : UInt32
  spellId : UInt32
  slot : UInt8
  durTicks : UInt32

/-- A row of what `decode_buff_list` returns. -/
structure BuffEntry where
  spawnId : UInt32
  spellId : UInt32
  slot : Int32
  remainingTicks : Int32
  caster : String
  deriving DecidableEq

namespace BuffEntry

/-- Neither of the markers that stand for no spell. -/
def IsSpell (spellId : UInt32) : Prop := ¬ (spellId = 0 ∨ spellId = 0xffffffff)

instance (spellId : UInt32) : Decidable (IsSpell spellId) := inferInstanceAs (Decidable (¬ _))

def permanent (e : BuffEntry) : Bool := e.remainingTicks ≤ 0

def duration (e : BuffEntry) : Int32 :=
  if e.permanent then SpellItem.permanentDuration else e.remainingTicks * 6

/-- The caster's id is known where the player is the caster. -/
def casterId (e : BuffEntry) (w : SpellWorld) : UInt16 :=
  if e.caster ≠ "" ∧ e.caster = w.playerName then w.playerId else 0

/-- The caster as it is shown. -/
def casterName (e : BuffEntry) : String := if e.caster = "" then "Buff" else e.caster

/-- What an entry sets of an item that is there. -/
def refresh (e : BuffEntry) (i : SpellItem) : SpellItem :=
  { i with isPermanent := e.permanent, duration := e.duration, buffSlot := e.slot }

/-- What an entry makes of a new item. -/
def fill (e : BuffEntry) (w : SpellWorld) (targetId : UInt16) (targetName : String)
    (i : SpellItem)
    : SpellItem :=
  e.refresh (i.update w e.spellId (w.spell e.spellId) e.duration (e.casterId w) e.casterName
    targetId targetName)

end BuffEntry

/-- A decoded action. -/
structure ActionRecord where
  target : UInt16
  source : UInt16
  spell : UInt16
  level : UInt8
  type : UInt8

namespace SpellShell

/-- The constructor. -/
def fresh : SpellShell := ⟨[], [], none, false, 0⟩

/-- `m_timer->start`, where the timer is not active. -/
def start (s : SpellShell) : SpellShell :=
  if !s.timerActive then { s with timerActive := true } else s

def stop (s : SpellShell) : SpellShell := { s with timerActive := false }

/-- The test of `findSpell`. -/
def matchesOwner (spellId : UInt32) (targetId : UInt16) (targetName : String) (i : SpellItem)
    : Bool :=
  i.spellId = spellId
    && (i.targetId = targetId || (i.targetId = 0 && i.targetName = targetName))

def findSpell (s : SpellShell) (spellId : UInt32) (targetId : UInt16) (targetName : String)
    : Option SpellItem :=
  s.spellList.find? (matchesOwner spellId targetId targetName)

def findEffect (s : SpellShell) (spellId : UInt32) (targetId : UInt16) : Option SpellItem :=
  s.targetEffects.find? fun i => i.spellId = spellId && i.targetId = targetId

/-- A change of an item of the list. -/
def setSpell (s : SpellShell) (address : Nat) (f : SpellItem → SpellItem) : SpellShell :=
  { s with spellList := modifyAt address f s.spellList }

/-- A change of an effect. -/
def setEffect (s : SpellShell) (address : Nat) (f : SpellItem → SpellItem) : SpellShell :=
  { s with targetEffects := modifyAt address f s.targetEffects }

/-- A new item at the end of the list. -/
def appendSpell (s : SpellShell) (f : SpellItem → SpellItem) : SpellShell :=
  { s with
    spellList := s.spellList ++ [f { address := s.nextAddress }]
    nextAddress := s.nextAddress + 1 }

/-- A new effect. -/
def appendEffect (s : SpellShell) (f : SpellItem → SpellItem) : SpellShell :=
  { s with
    targetEffects := s.targetEffects ++ [f { address := s.nextAddress }]
    nextAddress := s.nextAddress + 1 }

def clear (s : SpellShell) : SpellShell :=
  let s := { s with lastPlayerSpell := none, spellList := [] }
  let s := if s.targetEffects ≠ [] then { s with targetEffects := [] } else s
  s.stop

def deleteSpell (s : SpellShell) (item : Option Nat) : SpellShell :=
  match item with
  | none => s
  | some address =>
      let s := if s.lastPlayerSpell = some address then { s with lastPlayerSpell := none } else s
      let s := { s with spellList := s.spellList.eraseP fun i => i.address = address }
      if s.spellList = [] then s.stop else s

/-- `deleteSpell` on each item that was collected. -/
def deleteSpells (s : SpellShell) (items : List SpellItem) : SpellShell :=
  items.foldl (fun s i => s.deleteSpell (some i.address)) s

-----------------------------------------------------------------------------------------
-- Slots
-----------------------------------------------------------------------------------------

def buffLoad (s : SpellShell) (w : SpellWorld) (spellid : UInt32) (ticks : Int32) : SpellShell :=
  let load := fun i : SpellItem =>
    i.update w spellid (w.spell spellid) (ticks * 6) 0 "Buff" w.playerId w.playerName
  match s.findSpell spellid w.playerId w.playerName with
  | some item => s.setSpell item.address load
  | none => (s.appendSpell load).start

/-- The end of `buff`, once the duration and the slot are known. -/
def applyBuff (s : SpellShell) (w : SpellWorld) (spellId : UInt32) (owner : UInt16)
    (duration : Int32) (slot : UInt8)
    : SpellShell :=
  let setSlot := fun i : SpellItem =>
    if slot ≠ 0xff then { i with buffSlot := slot.toUInt32.toInt32 } else i
  match s.findSpell spellId owner "" with
  | some item => s.setSpell item.address fun i => setSlot { i with duration }
  | none =>
      (s.appendSpell fun i =>
        setSlot (i.update w spellId (w.spell spellId) duration 0 "" owner "")).start

/-- `buff`, from the decoded record. A compact record changes nothing. -/
def buff (s : SpellShell) (w : SpellWorld) (fromClient : Bool) (out : Option BuffRecord)
    : SpellShell :=
  if fromClient then s
  else
    match out with
    | none => s
    | some out =>
        let compact := out.form = 3
        if ¬ compact ∧ w.playerId ≠ 0 ∧ out.spawnId ≠ w.playerId.toUInt32 then s
        else if out.spellId = 0xffffffff ∨ out.spellId = 0 then s
        else
          let owner := if compact then w.playerId else out.spawnId.toUInt16
          if compact then s
          else if out.form = 0 then
            s.deleteSpell ((s.findSpell out.spellId owner "").map (·.address))
          else if out.form = 1 then
            let duration := ((w.spell out.spellId).elim 0 fun spell =>
              (spell.calcDuration w.playerLevel).toInt32 * 6)
            if duration ≤ 0 then s else s.applyBuff w out.spellId owner duration out.slot
          else
            let duration := out.durTicks.toInt32 * 6
            if duration ≤ 0 then s else s.applyBuff w out.spellId owner duration 0xff

/-- The mob that a list is about; none where it is the player's. -/
def buffListMob (w : SpellWorld) (spawnId : UInt32) : Option String :=
  if spawnId = w.playerId.toUInt32 then none else w.findID spawnId.toUInt16

/-- One entry of a mob's list. The flag is `addedEff`: whether there is a new effect. -/
def mobEntry (w : SpellWorld) (mobId : UInt16) (mobName : String) (r : SpellShell × Bool)
    (e : BuffEntry)
    : SpellShell × Bool :=
  if ¬ BuffEntry.IsSpell e.spellId then r
  else
    match r.1.findEffect e.spellId mobId with
    | some eff => (r.1.setEffect eff.address e.refresh, r.2)
    | none => (r.1.appendEffect (e.fill w mobId mobName), true)

/-- An effect that a mob's list drops. -/
def isReaped (w : SpellWorld) (mobId : UInt16) (entries : List BuffEntry) (i : SpellItem)
    : Bool :=
  if i.targetId ≠ mobId ∨ i.casterId = w.playerId then false
  else !entries.any fun e => e.spellId = i.spellId

/-- `buffList` for a mob. -/
def mobBuffList (s : SpellShell) (w : SpellWorld) (mobId : UInt16) (mobName : String)
    (entries : List BuffEntry)
    : SpellShell :=
  let merged := entries.foldl (mobEntry w mobId mobName) (s, false)
  let s := merged.1
  let gone := s.targetEffects.filter (isReaped w mobId entries)
  let s := { s with
    targetEffects := gone.foldl (fun effects i => effects.eraseP fun e => e.address = i.address)
      s.targetEffects }
  if merged.2 then s.start else s

/-- An item of the player's under another id than the current one. -/
def isOrphan (w : SpellWorld) (i : SpellItem) : Bool :=
  i.targetName = w.playerName && i.targetId ≠ w.playerId

/-- What a list of the player's deletes first. -/
def dropOrphans (s : SpellShell) (w : SpellWorld) : SpellShell :=
  if w.playerName ≠ "" then s.deleteSpells (s.spellList.filter (isOrphan w)) else s

/-- One entry of the player's list. The flag is `added`: whether there is a new item. -/
def playerEntry (w : SpellWorld) (r : SpellShell × Bool) (e : BuffEntry) : SpellShell × Bool :=
  if ¬ BuffEntry.IsSpell e.spellId then r
  else
    match r.1.findSpell e.spellId w.playerId w.playerName with
    | some item => (r.1.setSpell item.address e.refresh, r.2)
    | none => (r.1.appendSpell (e.fill w w.playerId w.playerName), true)

/-- An item whose spell no entry lists. -/
def isStale (entries : List BuffEntry) (i : SpellItem) : Bool :=
  !entries.any fun e => e.spellId = i.spellId

/-- `buffList` for the player. -/
def playerBuffList (s : SpellShell) (w : SpellWorld) (entries : List BuffEntry) : SpellShell :=
  let merged := entries.foldl (playerEntry w) (s.dropOrphans w, false)
  let s := merged.1.deleteSpells (merged.1.spellList.filter (isStale entries))
  if merged.2 then s.start else s

def buffList (s : SpellShell) (w : SpellWorld) (fromClient : Bool) (entries : List BuffEntry)
    : SpellShell :=
  if fromClient then s
  else
    match entries with
    | [] => s
    | first :: _ =>
        match buffListMob w first.spawnId with
        | some mobName => s.mobBuffList w first.spawnId.toUInt16 mobName entries
        | none => s.playerBuffList w entries

/-- The name of a spawn that is found under a nonzero id. -/
def nameOf (w : SpellWorld) (id : UInt16) : String :=
  if id ≠ 0 then (w.findID id).getD "" else ""

/-- The duration that the table has for a spell at a level. -/
def tableDuration (w : SpellWorld) (spell : UInt16) (level : UInt8) : Int32 :=
  (w.spell spell.toUInt32).elim 0 fun spell => (spell.calcDuration level).toInt32 * 6

def action (s : SpellShell) (w : SpellWorld) (out : Option ActionRecord) : SpellShell :=
  match out with
  | none => s
  | some a =>
      if a.type ≠ 0xe7 then s
      else
        let spell := a.spell.toUInt32
        let targetName := nameOf w a.target
        let duration := tableDuration w a.spell a.level
        let cast := fun (casterName : String) (i : SpellItem) =>
          i.update w spell (w.spell spell) duration a.source casterName a.target targetName
        match s.findSpell spell a.target targetName with
        | some item => s.setSpell item.address (cast (nameOf w a.source))
        | none =>
            if a.target = w.playerId then
              if duration > 0 then (s.appendSpell (cast (nameOf w a.source))).start else s
            else if a.source = w.playerId ∧ a.target ≠ 0 then
              if duration ≤ 0 then s
              else
                match s.findEffect spell a.target with
                | some eff => s.setEffect eff.address (cast w.playerName)
                | none => (s.appendEffect (cast w.playerName)).start
            else s

/-- The messages that end the player's last spell. -/
def endingFormats : List UInt32 :=
  [191, 239, 240, 242, 243, 244, 245, 248, 251, 253, 255, 263, 264, 268, 269, 271, 272, 439,
    3285, 9035, 9036]

def simpleMessage (s : SpellShell) (messageFormat : UInt32) : SpellShell :=
  match s.lastPlayerSpell with
  | none => s
  | some last =>
      if messageFormat ∈ endingFormats then
        { s.deleteSpell (some last) with lastPlayerSpell := none }
      else s

/-- `QString::right`; a negative count takes all. -/
def right (text : List Char) (n : Int) : List Char :=
  if n < 0 then text else text.drop (text.length - n.toNat)

/-- `QString::left`; a negative count takes all. -/
def left (text : List Char) (n : Int) : List Char :=
  if n < 0 then text else text.take n.toNat

/-- The spell that a message says was resisted or has worn off. -/
def endedSpell (str : List Char) : Option (List Char) :=
  let spell := right str (str.length - 7)
  if left spell 25 = "Your target resisted the ".toList then
    let spell := right spell (spell.length - 25)
    some (left spell (spell.length - 7))
  else if right spell 20 = " spell has worn off.".toList then
    let spell := right spell (spell.length - 5)
    some (left spell (spell.length - 20))
  else none

def spellMessage (s : SpellShell) (str : List Char) : SpellShell :=
  match endedSpell str with
  | none => s
  | some spell =>
      match s.spellList.find? fun i => i.spellName.toList = spell with
      | some item => s.setSpell item.address fun i => { i with duration := 0 }
      | none => s

def zoneChanged (s : SpellShell) : SpellShell :=
  let s := { s with
    lastPlayerSpell := none
    spellList := s.spellList.map fun i => { i with targetId := 0, casterId := 0 } }
  if s.targetEffects ≠ [] then
    let s := { s with targetEffects := [] }
    if s.spellList = [] then s.stop else s
  else s

def killSpawn (s : SpellShell) (w : SpellWorld) (id : UInt16) : SpellShell :=
  if id = w.playerId then s.clear
  else
    let last := s.lastPlayerSpell.bind fun address =>
      s.spellList.find? fun i => i.address = address
    let s : SpellShell :=
      if last.any fun i => i.targetId = id then { s with lastPlayerSpell := none } else s
    let s : SpellShell := { s with spellList := s.spellList.filter fun i => i.targetId ≠ id }
    let s : SpellShell := { s with targetEffects := s.targetEffects.filter fun i => i.targetId ≠ id }
    if s.spellList = [] ∧ s.targetEffects = [] then s.stop else s

def delSpawn (s : SpellShell) (despawned : Option UInt16) : SpellShell :=
  match despawned with
  | none => s
  | some id =>
      let changed := s.targetEffects.any fun i => i.targetId = id
      let s : SpellShell := { s with targetEffects := s.targetEffects.filter fun i => i.targetId ≠ id }
      if changed ∧ s.spellList = [] ∧ s.targetEffects = [] then s.stop else s

/-- The sweep at one item: what is left of it. -/
def sweep (w : SpellWorld) (i : SpellItem) : Option SpellItem :=
  if i.isPermanent then some i
  else
    let d := i.duration - w.spellTimer
    if d > -6 then some { i with duration := d } else none

def timeout (s : SpellShell) (w : SpellWorld) : SpellShell :=
  let finished := s.spellList.any fun i =>
    (sweep w i).isNone && s.lastPlayerSpell = some i.address
  let s : SpellShell := if finished then { s with lastPlayerSpell := none } else s
  let s : SpellShell := { s with spellList := s.spellList.filterMap (sweep w) }
  let s : SpellShell := { s with targetEffects := s.targetEffects.filterMap (sweep w) }
  if s.spellList = [] ∧ s.targetEffects = [] then s.stop else s

end SpellShell

/-- The operations of the shell, each with what it finds elsewhere. -/
inductive SpellOp
  | buffLoad (w : SpellWorld) (spellid : UInt32) (ticks : Int32)
  | buff (w : SpellWorld) (fromClient : Bool) (out : Option BuffRecord)
  | buffList (w : SpellWorld) (fromClient : Bool) (entries : List BuffEntry)
  | action (w : SpellWorld) (out : Option ActionRecord)
  | simpleMessage (messageFormat : UInt32)
  | spellMessage (str : List Char)
  | zoneChanged
  | killSpawn (w : SpellWorld) (id : UInt16)
  | delSpawn (despawned : Option UInt16)
  | deleteSpell (item : Option Nat)
  | timeout (w : SpellWorld)
  | clear

/-- One operation on the shell. -/
def SpellOp.run (op : SpellOp) (s : SpellShell) : SpellShell :=
  match op with
  | .buffLoad w spellid ticks => s.buffLoad w spellid ticks
  | .buff w fromClient out => s.buff w fromClient out
  | .buffList w fromClient entries => s.buffList w fromClient entries
  | .action w out => s.action w out
  | .simpleMessage messageFormat => s.simpleMessage messageFormat
  | .spellMessage str => s.spellMessage str
  | .zoneChanged => s.zoneChanged
  | .killSpawn w id => s.killSpawn w id
  | .delSpawn despawned => s.delSpawn despawned
  | .deleteSpell item => s.deleteSpell item
  | .timeout w => s.timeout w
  | .clear => s.clear

end Scry
