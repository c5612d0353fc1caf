import Scry.Library.Machine
import Scry.Spells.BuffList
import Scry.Spells.SpellSession

/-! The lists that a client holds against those of the shell. An operation that changes a list
signals it afterwards, so that what is sent is what the list has become; three operations signal
that they are going to empty one.
-/

namespace Scry

namespace SpellShell

/-- The spells of a list. -/
def spells (s : SpellShell) (kind : SpellKind) : List UInt32 := (s.items kind).map (·.spellId)

variable {s : SpellShell}

theorem deleteSpell_effects (item : Option Nat)
    : (s.deleteSpell item).targetEffects = s.targetEffects := by
  cases item with
  | none => rfl
  | some address =>
      simp only [deleteSpell]
      split_ifs <;> rfl

theorem start_spells (kind : SpellKind) : s.start.spells kind = s.spells kind := by
  rw [start]
  split_ifs <;> rfl

theorem start_effects : s.start.targetEffects = s.targetEffects := by
  rw [start]
  split_ifs <;> rfl

theorem start_spellList : s.start.spellList = s.spellList := by
  rw [start]
  split_ifs <;> rfl

/-- A change of items that leaves their spells. -/
theorem spells_map {f : SpellItem → SpellItem} (keeps : ∀ i, (f i).spellId = i.spellId)
    (items : List SpellItem)
    : (items.map f).map (·.spellId) = items.map (·.spellId) := by
  rw [List.map_map]
  exact List.map_congr_left fun i _ => keeps i

theorem spells_forgetIds (items : List SpellItem)
    : (items.map fun i => { i with targetId := 0, casterId := 0 }).map (·.spellId)
      = items.map (·.spellId) := by
  refine spells_map (fun i => ?_) items
  rfl

theorem spellMessage_spells (s : SpellShell) (str : List Char) (kind : SpellKind)
    : (s.spellMessage str).spells kind = s.spells kind := by
  simp only [spellMessage]
  cases endedSpell str with
  | none => rfl
  | some spell =>
      dsimp only
      cases s.spellList.find? fun i => i.spellName.toList = spell with
      | none => rfl
      | some item =>
          cases kind with
          | effects => rfl
          | buffs =>
              refine spells_map (fun i => ?_) _
              split_ifs <;> rfl

end SpellShell

namespace SpellSession

variable {x y z : SpellSession} {w : SpellWorld}

-----------------------------------------------------------------------------------------
-- What a client holds
-----------------------------------------------------------------------------------------

/-- The list that the last update of a kind had, and before any the empty one. -/
def held (x : SpellSession) (kind : SpellKind) : List BuffView :=
  x.sent.foldl (fun held update => if update.kind = kind then update.buffs else held) []

/-- The client's list has the spells of the shell's, each as often. -/
def Agrees (x : SpellSession) (kind : SpellKind) : Prop :=
  ((x.held kind).map (·.spellId)).Perm (x.shell.spells kind)

instance (x : SpellSession) (kind : SpellKind) : Decidable (x.Agrees kind) :=
  inferInstanceAs (Decidable (List.Perm _ _))

/-- Both lists of the client are the shell's, the effects once the timer has fired. -/
structure Current (x : SpellSession) : Prop where
  buffs : x.Agrees .buffs
  effects : x.effectsDirty = false → x.Agrees .effects

@[simp]
theorem modify_held (f : SpellShell → SpellShell) (kind : SpellKind)
    : (x.modify f).held kind = x.held kind :=
  rfl

theorem sendUpdate_held (kind : SpellKind)
    : (x.sendUpdate kind).held kind = (x.shell.items kind).map fillBuff := by
  simp [sendUpdate, held]

theorem sendUpdate_held_other {kind other : SpellKind} (differ : kind ≠ other)
    : (x.sendUpdate kind).held other = x.held other := by
  simp [sendUpdate, held, differ]

/-- What has just been sent agrees. -/
theorem agrees_sendUpdate (kind : SpellKind) : (x.sendUpdate kind).Agrees kind := by
  rw [Agrees, sendUpdate_held, List.map_map]
  exact List.Perm.refl _

theorem agrees_sendUpdate_other {kind other : SpellKind} (differ : kind ≠ other)
    : (x.sendUpdate kind).Agrees other ↔ x.Agrees other := by
  rw [Agrees, Agrees, sendUpdate_held_other differ]
  rfl

theorem Current.onBuffsChanged (effects : x.effectsDirty = false → x.Agrees .effects)
    : x.onBuffsChanged.Current where
  buffs := agrees_sendUpdate .buffs
  effects clean := (agrees_sendUpdate_other (by decide)).mpr (effects clean)

theorem Current.onEffectsChanged (buffs : x.Agrees .buffs) : x.onEffectsChanged.Current := by
  rw [SpellSession.onEffectsChanged]
  split_ifs with replay dirty
  · exact ⟨(agrees_sendUpdate_other (by decide)).mpr buffs, fun _ => agrees_sendUpdate .effects⟩
  · exact ⟨buffs, fun clean => Bool.noConfusion (clean.symm.trans dirty)⟩
  · exact ⟨buffs, fun clean => Bool.noConfusion clean⟩

/-- The timer leaves nothing outstanding. -/
theorem Current.fireEffects (current : x.Current) : x.fireEffects.Current := by
  rw [SpellSession.fireEffects]
  split_ifs with dirty
  · exact ⟨(agrees_sendUpdate_other (by decide)).mpr current.buffs,
      fun _ => agrees_sendUpdate .effects⟩
  · exact current

theorem fireEffects_effectsDirty : x.fireEffects.effectsDirty = false := by
  rw [SpellSession.fireEffects]
  split_ifs with dirty
  · rfl
  · simpa using dirty

/-- A session that subscribes is shown the lists as they are. -/
theorem current_subscribe (deterministic : Bool) (s : SpellShell)
    : (subscribe deterministic s).Current := by
  simp only [subscribe]
  split_ifs with effects
  · exact ⟨(agrees_sendUpdate_other (by decide)).mpr (agrees_sendUpdate .buffs),
      fun _ => agrees_sendUpdate .effects⟩
  · refine ⟨agrees_sendUpdate .buffs, fun _ => (agrees_sendUpdate_other (by decide)).mpr ?_⟩
    rw [ne_eq, Decidable.not_not] at effects
    simp [Agrees, SpellShell.spells, SpellShell.items, held, effects]

-----------------------------------------------------------------------------------------
-- Operations that signal what they have done
-----------------------------------------------------------------------------------------

/-- What a shell comes to that signals each change of a list right after it, and changes no spell
of a list without a signal.
-/
inductive Follows (x : SpellSession) : SpellSession → Prop
  | refl : Follows x x
  | quiet {y : SpellSession} (before : Follows x y) (f : SpellShell → SpellShell)
    (same : ∀ kind, (f y.shell).spells kind = y.shell.spells kind)
    : Follows x (y.modify f)
  | change {y : SpellSession} (before : Follows x y) (f : SpellShell → SpellShell)
    (signal : SpellSignal)
    (others : ∀ kind, kind ≠ signal.kind → (f y.shell).spells kind = y.shell.spells kind)
    : Follows x ((y.modify f).emit signal)

theorem Follows.trans (first : Follows x y) (second : Follows y z) : Follows x z := by
  induction second with
  | refl => exact first
  | quiet _ f same ih => exact ih.quiet f same
  | change _ f signal others ih => exact ih.change f signal others

/-- A client that is shown the lists goes on to be, by induction on the changes. -/
theorem Current.follows (current : x.Current) (follows : Follows x y) : y.Current := by
  induction follows with
  | refl => exact current
  | quiet _ f same ih =>
      refine ⟨?_, fun clean => ?_⟩
      · rw [Agrees, modify_shell, same]
        exact ih.buffs
      · rw [Agrees, modify_shell, same]
        exact ih.effects clean
  | @change y _ f signal others ih =>
      cases kind : signal.kind with
      | buffs =>
          have other := others .effects (by simp [kind])
          rw [emit, kind]
          refine Current.onBuffsChanged fun clean => ?_
          rw [Agrees, modify_shell, other]
          exact ih.effects clean
      | effects =>
          have other := others .buffs (by simp [kind])
          rw [emit, kind]
          refine Current.onEffectsChanged ?_
          rw [Agrees, modify_shell, other]
          exact ih.buffs

theorem emit_deterministic (signal : SpellSignal)
    : (x.emit signal).deterministic = x.deterministic := by
  cases kind : signal.kind with
  | buffs => rw [emit, kind]; rfl
  | effects =>
      rw [emit, kind]
      simp only [onEffectsChanged]
      split_ifs <;> rfl

/-- In a replay nothing is put off. -/
def Prompt (x : SpellSession) : Prop := x.deterministic = true → x.effectsDirty = false

theorem Prompt.emit (prompt : x.Prompt) (signal : SpellSignal) : (x.emit signal).Prompt := by
  intro replay
  rw [emit_deterministic] at replay
  cases kind : signal.kind with
  | buffs => rw [SpellSession.emit, kind]; exact prompt replay
  | effects =>
      rw [SpellSession.emit, kind]
      simp only [onEffectsChanged, replay, if_true]
      exact prompt replay

theorem Prompt.follows (prompt : x.Prompt) (follows : Follows x y) : y.Prompt := by
  induction follows with
  | refl => exact prompt
  | quiet _ f same ih => exact ih
  | @change y _ f signal others ih => exact Prompt.emit (x := y.modify f) ih signal

theorem follows_foldl {β : Type} {f : SpellSession → β → SpellSession}
    (one : ∀ y i, Follows y (f y i)) (items : List β)
    : Follows x (items.foldl f x) := by
  induction items generalizing x with
  | nil => exact .refl
  | cons i rest ih => exact (one x i).trans ih

theorem follows_foldl_entries {f : SpellSession × Bool → BuffEntry → SpellSession × Bool}
    (one : ∀ r e, Follows r.1 (f r e).1) (entries : List BuffEntry) (r : SpellSession × Bool)
    : Follows r.1 (entries.foldl f r).1 := by
  induction entries generalizing r with
  | nil => exact .refl
  | cons e rest ih => exact (one r e).trans (ih (f r e))

/-- A change of the buffs that is signalled. -/
theorem Follows.changeBuffs (before : Follows x y) (f : SpellShell → SpellShell)
    (signal : SpellSignal) (buffs : signal.kind = .buffs)
    (effects : (f y.shell).targetEffects = y.shell.targetEffects)
    : Follows x ((y.modify f).emit signal) := by
  refine before.change f signal fun kind other => ?_
  cases kind with
  | buffs => exact absurd buffs.symm other
  | effects => rw [SpellShell.spells, SpellShell.items, effects]; rfl

/-- A change of the effects that is signalled. -/
theorem Follows.changeEffects (before : Follows x y) (f : SpellShell → SpellShell)
    (signal : SpellSignal) (effects : signal.kind = .effects)
    (buffs : (f y.shell).spellList = y.shell.spellList)
    : Follows x ((y.modify f).emit signal) := by
  refine before.change f signal fun kind other => ?_
  cases kind with
  | buffs => rw [SpellShell.spells, SpellShell.items, buffs]; rfl
  | effects => exact absurd effects.symm other

theorem follows_deleteSpell (x : SpellSession) (item : Option Nat)
    : Follows x (x.deleteSpell item) := by
  cases item with
  | none => exact .refl
  | some address =>
      exact Follows.refl.changeBuffs (fun s => s.deleteSpell (some address)) .delSpell rfl
        (SpellShell.deleteSpell_effects _)

theorem follows_deleteSpells (items : List SpellItem) : Follows x (x.deleteSpells items) :=
  follows_foldl (fun y i => follows_deleteSpell y (some i.address)) items

/-- The timer may be started or stopped on the way. -/
theorem Follows.startIf (before : Follows x y) (c : Prop) [Decidable c]
    : Follows x (if c then y.modify SpellShell.start else y) := by
  split_ifs
  · exact before.quiet _ SpellShell.start_spells
  · exact before

theorem Follows.stopIf (before : Follows x y) (c : Prop) [Decidable c]
    : Follows x (if c then y.modify SpellShell.stop else y) := by
  split_ifs
  · exact before.quiet _ fun _ => rfl
  · exact before

/-- The last spell of the player may be forgotten. -/
theorem follows_forget (x : SpellSession) (c : Prop) [Decidable c]
    : Follows x (if c then x.modify fun s => { s with lastPlayerSpell := none } else x) := by
  split_ifs
  · exact Follows.refl.quiet _ fun _ => rfl
  · exact .refl

theorem follows_buffLoad (spellid : UInt32) (ticks : Int32)
    : Follows x (x.buffLoad w spellid ticks) := by
  simp only [buffLoad]
  cases x.shell.findSpell spellid w.playerId w.playerName with
  | some item => exact Follows.refl.changeBuffs _ _ rfl rfl
  | none => exact Follows.refl.changeBuffs _ _ rfl SpellShell.start_effects

theorem follows_applyBuff (spellId : UInt32) (owner : UInt16) (duration : Int32) (slot : UInt8)
    : Follows x (x.applyBuff w spellId owner duration slot) := by
  simp only [applyBuff]
  cases x.shell.findSpell spellId owner "" with
  | some item => exact Follows.refl.changeBuffs _ _ rfl rfl
  | none => exact Follows.refl.changeBuffs _ _ rfl SpellShell.start_effects

theorem follows_buff (fromClient : Bool) (out : Option BuffRecord)
    : Follows x (x.buff w fromClient out) := by
  cases out with
  | none => simpa [buff] using Follows.refl
  | some out =>
      simp only [buff]
      split_ifs
      all_goals first
        | exact .refl
        | exact follows_deleteSpell x _
        | exact follows_applyBuff _ _ _ _

theorem follows_mobEntry (mobId : UInt16) (mobName : String) (r : SpellSession × Bool)
    (e : BuffEntry)
    : Follows r.1 (mobEntry w mobId mobName r e).1 := by
  rw [mobEntry]
  split_ifs
  · cases r.1.shell.findEffect e.spellId mobId with
    | some eff =>
        exact Follows.refl.changeEffects (·.setEffect eff.address e.refresh) .changeEffect rfl rfl
    | none => exact Follows.refl.changeEffects (·.appendEffect _) .addEffect rfl rfl
  · exact .refl

theorem follows_mobBuffList (mobId : UInt16) (mobName : String) (entries : List BuffEntry)
    : Follows x (x.mobBuffList w mobId mobName entries) := by
  have merged := follows_foldl_entries (follows_mobEntry (w := w) mobId mobName) entries (x, false)
  refine (merged.trans (follows_foldl (fun y i => ?_) _)).startIf _
  exact Follows.refl.changeEffects _ _ rfl rfl

theorem follows_dropOrphans : Follows x (x.dropOrphans w) := by
  rw [dropOrphans]
  split_ifs
  · exact follows_deleteSpells _
  · exact .refl

theorem follows_playerEntry (r : SpellSession × Bool) (e : BuffEntry)
    : Follows r.1 (playerEntry w r e).1 := by
  rw [playerEntry]
  split_ifs
  · cases r.1.shell.findSpell e.spellId w.playerId w.playerName with
    | some item =>
        exact Follows.refl.changeBuffs (·.setSpell item.address e.refresh) .changeSpell rfl rfl
    | none => exact Follows.refl.changeBuffs (·.appendSpell _) .addSpell rfl rfl
  · exact .refl

theorem follows_playerBuffList (entries : List BuffEntry)
    : Follows x (x.playerBuffList w entries) := by
  have merged := follows_dropOrphans.trans
    (follows_foldl_entries (follows_playerEntry (w := w)) entries (x.dropOrphans w, false))
  exact (merged.trans (follows_deleteSpells _)).startIf _

theorem follows_buffList (fromClient : Bool) (entries : List BuffEntry)
    : Follows x (x.buffList w fromClient entries) := by
  cases entries with
  | nil => simpa [buffList] using Follows.refl
  | cons first rest =>
      simp only [buffList]
      split_ifs
      · exact .refl
      · cases SpellShell.buffListMob w first.spawnId with
        | some mobName => exact follows_mobBuffList _ _ _
        | none => exact follows_playerBuffList _

theorem follows_action (out : Option ActionRecord) : Follows x (x.action w out) := by
  cases out with
  | none => exact .refl
  | some a =>
      by_cases cast : a.type = 0xe7
      · simp only [action, cast, ne_eq, not_true, if_false]
        cases x.shell.findSpell a.spell.toUInt32 a.target (SpellShell.nameOf w a.target) with
        | some item => exact Follows.refl.changeBuffs _ _ rfl rfl
        | none =>
            dsimp only
            split_ifs
            · exact Follows.refl.changeBuffs _ _ rfl SpellShell.start_effects
            · exact .refl
            · exact .refl
            · cases x.shell.findEffect a.spell.toUInt32 a.target with
              | some eff => exact Follows.refl.changeEffects _ _ rfl rfl
              | none => exact Follows.refl.changeEffects _ _ rfl SpellShell.start_spellList
            · exact .refl
      · simp only [action, ne_eq, cast, not_false_eq_true, if_true]
        exact .refl

theorem follows_simpleMessage (messageFormat : UInt32)
    : Follows x (x.simpleMessage messageFormat) := by
  simp only [simpleMessage]
  cases x.shell.lastPlayerSpell with
  | none => exact .refl
  | some last =>
      simp only
      split_ifs
      · exact (follows_deleteSpell x _).quiet _ fun _ => rfl
      · exact .refl

/-- A loop follows its list, by induction on the items that are still to come. -/
theorem follows_loop {kind : SpellKind} {changed deleted : SpellSignal}
    {visit : SpellItem → Visit} (ofChanged : changed.kind = kind)
    (ofDeleted : deleted.kind = kind) (x : SpellSession) (done rest : List SpellItem)
    : Follows x (loop kind changed deleted visit x done rest) := by
  have set : ∀ (y : SpellSession) (items : List SpellItem) (signal : SpellSignal),
      signal.kind = kind → Follows y ((y.modify (·.setItems kind items)).emit signal) := by
    intro y items signal same
    refine Follows.refl.change _ _ fun other differ => ?_
    rw [same] at differ
    cases kind <;> cases other <;> first | rfl | exact absurd rfl differ
  induction rest generalizing x done with
  | nil => exact .refl
  | cons i rest ih =>
      simp only [loop]
      cases visit i with
      | keep => exact ih x _
      | change j => exact (set x _ changed ofChanged).trans (ih _ _)
      | erase => exact (set x _ deleted ofDeleted).trans (ih _ _)

theorem follows_loopSpells (visit : SpellItem → Visit) : Follows x (x.loopSpells visit) := by
  refine follows_loop ?_ ?_ x _ _
  · rfl
  · rfl

theorem follows_loopEffects (visit : SpellItem → Visit) : Follows x (x.loopEffects visit) := by
  refine follows_loop ?_ ?_ x _ _
  · rfl
  · rfl

theorem follows_killSpawn {id : UInt16} (other : id ≠ w.playerId)
    : Follows x (x.killSpawn w id) := by
  rw [killSpawn, if_neg other]
  exact ((follows_forget x _).trans
    ((follows_loopSpells _).trans (follows_loopEffects _))).stopIf _

theorem follows_delSpawn (despawned : Option UInt16) : Follows x (x.delSpawn despawned) := by
  cases despawned with
  | none => exact .refl
  | some id => exact (follows_loopEffects _).stopIf _

theorem follows_timeout : Follows x (x.timeout w) :=
  ((follows_forget x _).trans
    ((follows_loopSpells _).trans (follows_loopEffects _))).stopIf _

-----------------------------------------------------------------------------------------
-- Operations that signal what they are going to do
-----------------------------------------------------------------------------------------

/-- No effect is there that a client would be shown for the last time. -/
def SparesEffects (x : SpellSession) : Prop :=
  x.deterministic = true → x.shell.targetEffects = []

/-- No item is there when the lists are cleared. -/
def SparesClear (x : SpellSession) : Prop := x.shell.spellList = [] ∧ x.SparesEffects

theorem agrees_iff_of_empty {kind : SpellKind} (empty : x.shell.items kind = [])
    : x.Agrees kind ↔ x.held kind = [] := by
  simp [Agrees, SpellShell.spells, empty]

theorem onEffectsChanged_held : x.onEffectsChanged.held .buffs = x.held .buffs := by
  rw [onEffectsChanged]
  split_ifs
  · exact sendUpdate_held_other (by decide)
  · rfl
  · rfl

/-- Effects that are emptied after the signal leave a replay's client with them. -/
theorem emptied_effects_iff {f : SpellShell → SpellShell} (empties : ∀ s, (f s).targetEffects = [])
    (effects : x.effectsDirty = false → x.Agrees .effects) (prompt : x.Prompt)
    : ((if x.shell.targetEffects ≠ [] then (x.emit .clearEffects).modify f else x).effectsDirty
          = false →
        (if x.shell.targetEffects ≠ [] then (x.emit .clearEffects).modify f else x).Agrees .effects)
      ↔ x.SparesEffects := by
  split_ifs with some
  · have empty : (((x.emit .clearEffects).modify f).shell.items .effects) = [] := empties _
    rw [agrees_iff_of_empty empty]
    cases replay : x.deterministic with
    | true =>
        have sent : x.emit .clearEffects = x.sendUpdate .effects := if_pos replay
        refine iff_of_false (fun agrees => some ?_) fun spares => some (spares replay)
        have held := agrees (by rw [sent]; exact prompt replay)
        rw [modify_held, sent, sendUpdate_held] at held
        exact List.map_eq_nil_iff.mp held
    | false =>
        have later : (x.emit .clearEffects).effectsDirty = true := by
          change x.onEffectsChanged.effectsDirty = true
          rw [onEffectsChanged, if_neg (by simp [replay])]
          split_ifs with dirty
          · exact dirty
          · rfl
        refine iff_of_true (fun clean => ?_) fun other => ?_
        · exact Bool.noConfusion (clean.symm.trans later)
        · exact Bool.noConfusion (replay.symm.trans other)
  · rw [ne_eq, Decidable.not_not] at some
    exact iff_of_true effects fun _ => some

/-- Cleared lists are shown as cleared exactly where they were empty. -/
theorem clear_current_iff (current : x.Current) (prompt : x.Prompt)
    : x.clear.Current ↔ x.SparesClear := by
  have announced : x.emit .clearSpells = x.sendUpdate .buffs := rfl
  have emptied := emptied_effects_iff
    (x := (x.emit .clearSpells).modify fun s => { s with lastPlayerSpell := none, spellList := [] })
    (f := fun s => { s with targetEffects := [] }) (fun _ => rfl)
    (fun clean => (agrees_sendUpdate_other (by decide)).mpr (current.effects clean)) prompt
  have held : x.clear.held .buffs = x.shell.spellList.map fillBuff := by
    rw [clear]
    split_ifs
    · exact onEffectsChanged_held.trans (sendUpdate_held .buffs)
    · exact sendUpdate_held .buffs
  have empty : x.clear.shell.items .buffs = [] := by
    rw [clear_shell]
    simp only [SpellShell.clear, SpellShell.stop, SpellShell.items]
    split_ifs <;> rfl
  have buffs : x.clear.Agrees .buffs ↔ x.shell.spellList = [] := by
    rw [agrees_iff_of_empty empty, held, List.map_eq_nil_iff]
  constructor
  · intro shown
    exact ⟨buffs.mp shown.buffs, emptied.mp shown.effects⟩
  · rintro ⟨noBuffs, spares⟩
    exact ⟨buffs.mpr noBuffs, emptied.mpr spares⟩

/-- A change of zone is shown exactly where a replay has no effect to drop. -/
theorem zoneChanged_current_iff (current : x.Current) (prompt : x.Prompt)
    : x.zoneChanged.Current ↔ x.SparesEffects := by
  have quiet : Follows x (x.modify fun s =>
      { s with
        lastPlayerSpell := none
        spellList := s.spellList.map fun i => { i with targetId := 0, casterId := 0 } }) := by
    refine Follows.refl.quiet _ fun kind => ?_
    cases kind with
    | buffs => exact SpellShell.spells_forgetIds x.shell.spellList
    | effects => rfl
  have emptied := emptied_effects_iff
    (f := fun s =>
      let s := { s with targetEffects := [] }
      if s.spellList = [] then s.stop else s)
    (fun s => by dsimp only; split_ifs <;> rfl) (current.follows quiet).effects prompt
  have buffs : x.zoneChanged.Agrees .buffs := by
    have held : x.zoneChanged.held .buffs = x.held .buffs := by
      rw [zoneChanged]
      split_ifs
      · exact onEffectsChanged_held
      · rfl
    have same : x.zoneChanged.shell.spells .buffs = x.shell.spells .buffs := by
      rw [zoneChanged_shell]
      simp only [SpellShell.zoneChanged]
      split_ifs <;> exact SpellShell.spells_forgetIds x.shell.spellList
    rw [Agrees, held, same]
    exact current.buffs
  exact ⟨fun shown => emptied.mp shown.effects, fun spares => ⟨buffs, emptied.mpr spares⟩⟩

-----------------------------------------------------------------------------------------
-- Runs
-----------------------------------------------------------------------------------------

/-- What an event must find for the client's lists to be the shell's afterwards: an operation that
empties a list after its signal finds it empty.
-/
def Spares (x : SpellSession) : SpellEvent → Prop
  | .operation .clear => x.SparesClear
  | .operation (.killSpawn w id) => id = w.playerId → x.SparesClear
  | .operation .zoneChanged => x.SparesEffects
  | _ => True

/-- An operation clears the shell, changes the zone, or signals what it has done. -/
theorem run_cases (op : SpellOp) (x : SpellSession)
    : (x.run op = x.clear ∧ (x.Spares (.operation op) ↔ x.SparesClear))
      ∨ (x.run op = x.zoneChanged ∧ (x.Spares (.operation op) ↔ x.SparesEffects))
      ∨ (Follows x (x.run op) ∧ x.Spares (.operation op)) := by
  cases op with
  | clear => exact Or.inl ⟨rfl, Iff.rfl⟩
  | zoneChanged => exact Or.inr (Or.inl ⟨rfl, Iff.rfl⟩)
  | killSpawn w id =>
      by_cases death : id = w.playerId
      · exact Or.inl ⟨if_pos death, fun spares => spares death, fun spares _ => spares⟩
      · exact Or.inr (Or.inr ⟨follows_killSpawn death, fun same => absurd same death⟩)
  | buffLoad w spellid ticks => exact Or.inr (Or.inr ⟨follows_buffLoad spellid ticks, trivial⟩)
  | buff w fromClient out => exact Or.inr (Or.inr ⟨follows_buff fromClient out, trivial⟩)
  | buffList w fromClient entries =>
      exact Or.inr (Or.inr ⟨follows_buffList fromClient entries, trivial⟩)
  | action w out => exact Or.inr (Or.inr ⟨follows_action out, trivial⟩)
  | simpleMessage messageFormat =>
      exact Or.inr (Or.inr ⟨follows_simpleMessage messageFormat, trivial⟩)
  | spellMessage str =>
      exact Or.inr (Or.inr ⟨Follows.refl.quiet (·.spellMessage str)
        (x.shell.spellMessage_spells str), trivial⟩)
  | delSpawn despawned => exact Or.inr (Or.inr ⟨follows_delSpawn despawned, trivial⟩)
  | deleteSpell item => exact Or.inr (Or.inr ⟨follows_deleteSpell x item, trivial⟩)
  | timeout w => exact Or.inr (Or.inr ⟨follows_timeout, trivial⟩)

/-- One event leaves the client's lists the shell's exactly where it finds what it must. -/
theorem step_current_iff (event : SpellEvent) (prompt : x.Prompt) (current : x.Current)
    : (event.step x).Current ↔ x.Spares event := by
  cases event with
  | fire => exact iff_of_true current.fireEffects trivial
  | operation op =>
      change (x.run op).Current ↔ _
      rcases run_cases op x with ⟨cleared, spares⟩ | ⟨zoned, spares⟩ | ⟨follows, spares⟩
      · rw [cleared, spares]
        exact clear_current_iff current prompt
      · rw [zoned, spares]
        exact zoneChanged_current_iff current prompt
      · exact iff_of_true (current.follows follows) spares

theorem Prompt.clear (prompt : x.Prompt) : x.clear.Prompt := by
  have announced := Prompt.emit (x := (x.emit .clearSpells).modify fun s =>
    { s with lastPlayerSpell := none, spellList := [] }) (Prompt.emit prompt .clearSpells)
  rw [SpellSession.clear]
  split_ifs
  · exact announced .clearEffects
  · exact Prompt.emit prompt .clearSpells

theorem Prompt.zoneChanged (prompt : x.Prompt) : x.zoneChanged.Prompt := by
  rw [SpellSession.zoneChanged]
  split_ifs
  · exact Prompt.emit (x := x.modify _) prompt .clearEffects
  · exact prompt

theorem prompt_step (x : SpellSession) (event : SpellEvent) (prompt : x.Prompt)
    : (event.step x).Prompt := by
  cases event with
  | fire => exact fun _ => fireEffects_effectsDirty
  | operation op =>
      change (x.run op).Prompt
      rcases run_cases op x with ⟨cleared, _⟩ | ⟨zoned, _⟩ | ⟨follows, _⟩
      · exact cleared ▸ prompt.clear
      · exact zoned ▸ prompt.zoneChanged
      · exact prompt.follows follows

/-- The shell that the session follows is the shell that the operations of the run lead to, by
induction on the run.
-/
theorem exec_shell (events : List SpellEvent)
    : (Machine.exec SpellEvent.step x events).shell
      = Machine.exec SpellOp.run x.shell (events.filterMap SpellEvent.operation?) := by
  induction events generalizing x with
  | nil => rfl
  | cons event rest ih =>
      cases event with
      | fire =>
          have same : (SpellEvent.fire.step x).shell = x.shell := fireEffects_shell
          rw [Machine.exec, ih, same]
          rfl
      | operation op =>
          have same : ((SpellEvent.operation op).step x).shell = op.run x.shell := run_shell op
          rw [Machine.exec, ih, same]
          rfl

/-- Throughout a run the client's lists are the shell's exactly where each event finds what it
must.
-/
theorem always_current_iff (deterministic : Bool) (s : SpellShell) (events : List SpellEvent)
    : Machine.Always SpellEvent.step Current (subscribe deterministic s) events
      ↔ Machine.Permits SpellEvent.step Spares (subscribe deterministic s) events := by
  refine Machine.always_iff_permits (W := Prompt) ?_ (current_subscribe deterministic s)
    prompt_step fun x event prompt current => step_current_iff event prompt current
  intro _
  simp only [subscribe]
  split_ifs <;> rfl

/-- The player dies under a buff, and the client goes on showing it. -/
theorem not_always_current
    : ¬ ∀ deterministic s events,
        Machine.Always SpellEvent.step Current (subscribe deterministic s) events := by
  intro always
  obtain ⟨_, _, _, shown⟩ := always false SpellShell.fresh
    [.operation (.buffLoad (SpellShell.plainWorld 5) 13 40),
      .operation (.killSpawn (SpellShell.plainWorld 5) 5), .fire]
  exact absurd shown.buffs (by decide +kernel)

end SpellSession

end Scry
