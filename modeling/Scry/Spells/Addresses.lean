import Scry.Library.Keyed
import Scry.Library.Machine
import Scry.Spells.SpellShell

/-! No list of the spell shell holds an item twice, and a new item gets an address of its own.
So what is changed or deleted by its address is the item that was found, and deleting what a
test collected leaves what the test refuses.
-/

namespace Scry

variable {s : SpellShell} {w : SpellWorld} {items : List SpellItem}

/-- The addresses in a list. -/
def addresses (items : List SpellItem) : List Nat := items.map SpellItem.address

@[simp]
theorem addresses_append (left right : List SpellItem)
    : addresses (left ++ right) = addresses left ++ addresses right :=
  List.map_append

/-- A change that keeps addresses keeps those of a list. -/
theorem addresses_map {f : SpellItem → SpellItem} (keeps : ∀ i, (f i).address = i.address)
    : addresses (items.map f) = addresses items := by
  rw [addresses, addresses, List.map_map]
  exact List.map_congr_left fun i _ => keeps i

theorem addresses_modifyAt {f : SpellItem → SpellItem} (keeps : ∀ i, (f i).address = i.address)
    (address : Nat)
    : addresses (modifyAt address f items) = addresses items := by
  apply addresses_map
  intro i
  split_ifs
  · exact keeps i
  · rfl

/-- So does a selection that keeps addresses, as far as it goes. -/
theorem addresses_filterMap {f : SpellItem → Option SpellItem}
    (keeps : ∀ i j, f i = some j → j.address = i.address)
    : (addresses (items.filterMap f)).Sublist (addresses items) := by
  induction items with
  | nil => exact .slnil
  | cons i rest ih =>
      cases found : f i with
      | none =>
          rw [List.filterMap_cons_none found]
          exact ih.cons _
      | some j =>
          rw [List.filterMap_cons_some found]
          simp only [addresses, List.map_cons, keeps i j found]
          exact ih.cons_cons _

@[simp]
theorem SpellItem.setSpell_address (i : SpellItem) (w : SpellWorld) (spell : Option Spell)
    (targetId : UInt16)
    : (i.setSpell w spell targetId).address = i.address := by
  cases spell with
  | none => rfl
  | some spell => rfl

@[simp]
theorem SpellItem.update_address (i : SpellItem) (w : SpellWorld) (spellId : UInt32)
    (spell : Option Spell) (duration : Int32) (casterId : UInt16) (casterName : String)
    (targetId : UInt16) (targetName : String)
    : (i.update w spellId spell duration casterId casterName targetId targetName).address
      = i.address := by
  simp [SpellItem.update]

@[simp]
theorem BuffEntry.refresh_address (e : BuffEntry) (i : SpellItem)
    : (e.refresh i).address = i.address := rfl

@[simp]
theorem BuffEntry.fill_address (e : BuffEntry) (w : SpellWorld) (targetId : UInt16)
    (targetName : String) (i : SpellItem)
    : (e.fill w targetId targetName i).address = i.address := by
  simp [BuffEntry.fill]

namespace SpellShell

/-- No address is twice in a list or is still to come, and no last spell is remembered. -/
structure WellFormed (s : SpellShell) : Prop where
  noLast : s.lastPlayerSpell = none
  spells : (addresses s.spellList).Nodup
  effects : (addresses s.targetEffects).Nodup
  spellsBelow : ∀ a ∈ addresses s.spellList, a < s.nextAddress
  effectsBelow : ∀ a ∈ addresses s.targetEffects, a < s.nextAddress

theorem wellFormed_fresh : fresh.WellFormed :=
  ⟨rfl, List.nodup_nil, List.nodup_nil, by simp [fresh, addresses], by simp [fresh, addresses]⟩

-----------------------------------------------------------------------------------------
-- Changes that add nothing
-----------------------------------------------------------------------------------------

/-- What keeps or drops items keeps the lists well formed. -/
theorem WellFormed.of_sublist {t : SpellShell} (wf : s.WellFormed)
    (noLast : t.lastPlayerSpell = none) (next : t.nextAddress = s.nextAddress)
    (spells : (addresses t.spellList).Sublist (addresses s.spellList))
    (effects : (addresses t.targetEffects).Sublist (addresses s.targetEffects))
    : t.WellFormed where
  noLast := noLast
  spells := wf.spells.sublist spells
  effects := wf.effects.sublist effects
  spellsBelow a member := next ▸ wf.spellsBelow a (spells.subset member)
  effectsBelow a member := next ▸ wf.effectsBelow a (effects.subset member)

theorem WellFormed.setSpell (wf : s.WellFormed) {f : SpellItem → SpellItem}
    (keeps : ∀ i, (f i).address = i.address) (address : Nat)
    : (s.setSpell address f).WellFormed := by
  refine wf.of_sublist wf.noLast rfl ?_ (.refl _)
  rw [SpellShell.setSpell, addresses_modifyAt keeps]

theorem WellFormed.setEffect (wf : s.WellFormed) {f : SpellItem → SpellItem}
    (keeps : ∀ i, (f i).address = i.address) (address : Nat)
    : (s.setEffect address f).WellFormed := by
  refine wf.of_sublist wf.noLast rfl (.refl _) ?_
  rw [SpellShell.setEffect, addresses_modifyAt keeps]

theorem WellFormed.stop (wf : s.WellFormed) : s.stop.WellFormed :=
  wf.of_sublist wf.noLast rfl (.refl _) (.refl _)

theorem WellFormed.start (wf : s.WellFormed) : s.start.WellFormed := by
  rw [SpellShell.start]
  split_ifs
  · exact wf.of_sublist wf.noLast rfl (.refl _) (.refl _)
  · exact wf

/-- With no last spell to forget, `deleteSpell` takes the item out and stops the timer behind the
last one.
-/
theorem deleteSpell_some (noLast : s.lastPlayerSpell = none) (address : Nat)
    : s.deleteSpell (some address)
      = { s with
          spellList := s.spellList.eraseP fun i => i.address = address
          timerActive :=
            s.timerActive && !(s.spellList.eraseP fun i => i.address = address).isEmpty } := by
  obtain ⟨spellList, targetEffects, lastPlayerSpell, timerActive, nextAddress⟩ := s
  obtain rfl : lastPlayerSpell = none := noLast
  simp only [deleteSpell, reduceCtorEq, if_false]
  split_ifs with empty
  · simp [SpellShell.stop, empty]
  · simp [empty]

theorem WellFormed.deleteSpell (wf : s.WellFormed) (item : Option Nat)
    : (s.deleteSpell item).WellFormed := by
  cases item with
  | none => exact wf
  | some address =>
      rw [deleteSpell_some wf.noLast]
      exact wf.of_sublist wf.noLast rfl (List.eraseP_sublist.map _) (.refl _)

theorem WellFormed.deleteSpells (wf : s.WellFormed) (gone : List SpellItem)
    : (s.deleteSpells gone).WellFormed := by
  induction gone generalizing s with
  | nil => exact wf
  | cons i rest ih => exact ih (wf.deleteSpell _)

theorem WellFormed.clear (s : SpellShell) : s.clear.WellFormed := by
  rw [SpellShell.clear]
  split_ifs with filled
  · exact ⟨rfl, List.nodup_nil, List.nodup_nil, nofun, nofun⟩
  · have none : s.targetEffects = [] := not_not.mp filled
    exact ⟨rfl, List.nodup_nil, by simp [SpellShell.stop, none, addresses], nofun,
      by simp [SpellShell.stop, none, addresses]⟩

-----------------------------------------------------------------------------------------
-- New items
-----------------------------------------------------------------------------------------

/-- A fresh address after the ones in use. -/
theorem nodup_snoc_next {used : List Nat} {next : Nat} (nodup : used.Nodup)
    (below : ∀ a ∈ used, a < next)
    : (used ++ [next]).Nodup := by
  apply nodup.append (List.nodup_singleton next)
  intro a member same
  exact Nat.lt_irrefl next (List.mem_singleton.mp same ▸ below a member)

theorem WellFormed.appendSpell (wf : s.WellFormed) {f : SpellItem → SpellItem}
    (keeps : ∀ i, (f i).address = i.address)
    : (s.appendSpell f).WellFormed := by
  have new : addresses (s.appendSpell f).spellList = addresses s.spellList ++ [s.nextAddress] := by
    simp [SpellShell.appendSpell, addresses, keeps]
  refine ⟨wf.noLast, ?_, wf.effects, ?_, fun a member => Nat.lt_succ_of_lt (wf.effectsBelow a member)⟩
  · rw [new]
    exact nodup_snoc_next wf.spells wf.spellsBelow
  · intro a member
    rw [new] at member
    rcases List.mem_append.mp member with old | same
    · exact Nat.lt_succ_of_lt (wf.spellsBelow a old)
    · rw [List.mem_singleton.mp same]
      exact Nat.lt_succ_self _

theorem WellFormed.appendEffect (wf : s.WellFormed) {f : SpellItem → SpellItem}
    (keeps : ∀ i, (f i).address = i.address)
    : (s.appendEffect f).WellFormed := by
  have new
      : addresses (s.appendEffect f).targetEffects
        = addresses s.targetEffects ++ [s.nextAddress] := by
    simp [SpellShell.appendEffect, addresses, keeps]
  refine ⟨wf.noLast, wf.spells, ?_, fun a member => Nat.lt_succ_of_lt (wf.spellsBelow a member), ?_⟩
  · rw [new]
    exact nodup_snoc_next wf.effects wf.effectsBelow
  · intro a member
    rw [new] at member
    rcases List.mem_append.mp member with old | same
    · exact Nat.lt_succ_of_lt (wf.effectsBelow a old)
    · rw [List.mem_singleton.mp same]
      exact Nat.lt_succ_self _

-----------------------------------------------------------------------------------------
-- Every operation
-----------------------------------------------------------------------------------------

theorem WellFormed.buffLoad (wf : s.WellFormed) (w : SpellWorld) (spellid : UInt32)
    (ticks : Int32)
    : (s.buffLoad w spellid ticks).WellFormed := by
  rw [SpellShell.buffLoad]
  split
  · exact wf.setSpell (by simp) _
  · exact (wf.appendSpell (by simp)).start

theorem WellFormed.applyBuff (wf : s.WellFormed) (w : SpellWorld) (spellId : UInt32)
    (owner : UInt16) (duration : Int32) (slot : UInt8)
    : (s.applyBuff w spellId owner duration slot).WellFormed := by
  rw [SpellShell.applyBuff]
  split
  · exact wf.setSpell (fun i => by split_ifs <;> rfl) _
  · exact (wf.appendSpell (fun i => by split_ifs <;> simp)).start

theorem WellFormed.buff (wf : s.WellFormed) (w : SpellWorld) (fromClient : Bool)
    (out : Option BuffRecord)
    : (s.buff w fromClient out).WellFormed := by
  unfold SpellShell.buff
  split_ifs
  · exact wf
  cases out with
  | none => exact wf
  | some out =>
      dsimp only
      split_ifs
      all_goals first | exact wf | exact wf.deleteSpell _ | exact wf.applyBuff w _ _ _ _

theorem WellFormed.mobEntry {r : SpellShell × Bool} (wf : r.1.WellFormed) (w : SpellWorld)
    (mobId : UInt16) (mobName : String) (e : BuffEntry)
    : (mobEntry w mobId mobName r e).1.WellFormed := by
  rw [SpellShell.mobEntry]
  by_cases spell : BuffEntry.IsSpell e.spellId
  · rw [if_neg (not_not_intro spell)]
    split
    · exact wf.setEffect (by simp) _
    · exact wf.appendEffect (by simp)
  · rw [if_pos spell]
    exact wf

theorem WellFormed.playerEntry {r : SpellShell × Bool} (wf : r.1.WellFormed) (w : SpellWorld)
    (e : BuffEntry)
    : (playerEntry w r e).1.WellFormed := by
  rw [SpellShell.playerEntry]
  by_cases spell : BuffEntry.IsSpell e.spellId
  · rw [if_neg (not_not_intro spell)]
    split
    · exact wf.setSpell (by simp) _
    · exact wf.appendSpell (by simp)
  · rw [if_pos spell]
    exact wf

/-- What one entry keeps, the entries keep. -/
theorem WellFormed.entries {f : SpellShell × Bool → BuffEntry → SpellShell × Bool}
    {r : SpellShell × Bool} (wf : r.1.WellFormed)
    (keeps : ∀ r e, r.1.WellFormed → (f r e).1.WellFormed) (entries : List BuffEntry)
    : (entries.foldl f r).1.WellFormed := by
  induction entries generalizing r with
  | nil => exact wf
  | cons e rest ih => exact ih (keeps r e wf)

/-- Erasing one item after another leaves a part of the list. -/
theorem foldl_eraseP_sublist (gone items : List SpellItem)
    : (gone.foldl (fun l i => l.eraseP fun e => e.address = i.address) items).Sublist items := by
  induction gone generalizing items with
  | nil => exact .refl _
  | cons i rest ih => exact (ih _).trans List.eraseP_sublist

theorem WellFormed.dropOrphans (wf : s.WellFormed) (w : SpellWorld)
    : (s.dropOrphans w).WellFormed := by
  rw [SpellShell.dropOrphans]
  split_ifs
  · exact wf.deleteSpells _
  · exact wf

theorem WellFormed.playerEntries (wf : s.WellFormed) (w : SpellWorld) (entries : List BuffEntry)
    : (entries.foldl (SpellShell.playerEntry w) (s, false)).1.WellFormed :=
  WellFormed.entries (r := (s, false)) wf (fun _ e wf => wf.playerEntry w e) entries

theorem WellFormed.mobEntries (wf : s.WellFormed) (w : SpellWorld) (mobId : UInt16)
    (mobName : String) (entries : List BuffEntry)
    : (entries.foldl (SpellShell.mobEntry w mobId mobName) (s, false)).1.WellFormed :=
  WellFormed.entries (r := (s, false)) wf (fun _ e wf => wf.mobEntry w mobId mobName e) entries

theorem WellFormed.mobBuffList (wf : s.WellFormed) (w : SpellWorld) (mobId : UInt16)
    (mobName : String) (entries : List BuffEntry)
    : (s.mobBuffList w mobId mobName entries).WellFormed := by
  have merged := wf.mobEntries w mobId mobName entries
  rw [SpellShell.mobBuffList]
  generalize entries.foldl (SpellShell.mobEntry w mobId mobName) (s, false) = r at merged ⊢
  have reaped : { r.1 with
      targetEffects := (r.1.targetEffects.filter (isReaped w mobId entries)).foldl
        (fun effects (i : SpellItem) => effects.eraseP fun e => e.address = i.address)
        r.1.targetEffects }.WellFormed :=
    merged.of_sublist merged.noLast rfl (.refl _) ((foldl_eraseP_sublist _ _).map _)
  split_ifs
  · exact reaped.start
  · exact reaped

theorem WellFormed.playerBuffList (wf : s.WellFormed) (w : SpellWorld)
    (entries : List BuffEntry)
    : (s.playerBuffList w entries).WellFormed := by
  have merged := (wf.dropOrphans w).playerEntries w entries
  rw [SpellShell.playerBuffList]
  split_ifs
  · exact (merged.deleteSpells _).start
  · exact merged.deleteSpells _

theorem WellFormed.buffList (wf : s.WellFormed) (w : SpellWorld) (fromClient : Bool)
    (entries : List BuffEntry)
    : (s.buffList w fromClient entries).WellFormed := by
  unfold SpellShell.buffList
  split_ifs
  · exact wf
  cases entries with
  | nil => exact wf
  | cons first rest =>
      dsimp only
      cases buffListMob w first.spawnId with
      | some mobName => exact wf.mobBuffList w _ mobName _
      | none => exact wf.playerBuffList w _

theorem WellFormed.action (wf : s.WellFormed) (w : SpellWorld) (out : Option ActionRecord)
    : (s.action w out).WellFormed := by
  cases out with
  | none => exact wf
  | some a =>
      simp only [SpellShell.action]
      by_cases other : a.type ≠ 0xe7
      · rw [if_pos other]
        exact wf
      rw [if_neg other]
      cases s.findSpell a.spell.toUInt32 a.target (nameOf w a.target) with
      | some item => exact wf.setSpell (by simp) _
      | none =>
          cases s.findEffect a.spell.toUInt32 a.target with
          | some eff =>
              dsimp only
              split_ifs
              · exact (wf.appendSpell (by simp)).start
              · exact wf
              · exact wf
              · exact wf.setEffect (by simp) _
              · exact wf
          | none =>
              dsimp only
              split_ifs
              · exact (wf.appendSpell (by simp)).start
              · exact wf
              · exact wf
              · exact (wf.appendEffect (by simp)).start
              · exact wf

/-- With no last spell there is nothing to end. -/
theorem WellFormed.simpleMessage (wf : s.WellFormed) (messageFormat : UInt32)
    : s.simpleMessage messageFormat = s := by
  rw [SpellShell.simpleMessage, wf.noLast]

theorem WellFormed.spellMessage (wf : s.WellFormed) (str : List Char)
    : (s.spellMessage str).WellFormed := by
  rw [SpellShell.spellMessage]
  split
  · exact wf
  split
  · exact wf.setSpell (f := fun i => { i with duration := 0 }) (fun _ => rfl) _
  · exact wf

theorem WellFormed.zoneChanged (wf : s.WellFormed) : s.zoneChanged.WellFormed := by
  have spells : addresses (s.spellList.map fun i => { i with targetId := 0, casterId := 0 })
      = addresses s.spellList :=
    addresses_map fun _ => rfl
  rw [SpellShell.zoneChanged]
  dsimp only
  split_ifs
  · exact wf.of_sublist rfl rfl (by rw [SpellShell.stop, spells]) (List.nil_sublist _)
  · exact wf.of_sublist rfl rfl (by rw [spells]) (List.nil_sublist _)
  · exact wf.of_sublist rfl rfl (by rw [spells]) (.refl _)

/-- A shell whose timer is stopped where both lists are empty. -/
def rest (s : SpellShell) : SpellShell :=
  if s.spellList = [] ∧ s.targetEffects = [] then s.stop else s

theorem WellFormed.rest (wf : s.WellFormed) : s.rest.WellFormed := by
  rw [SpellShell.rest]
  split_ifs
  · exact wf.stop
  · exact wf

/-- With no last spell to forget, the death of another spawn takes its items from both lists. -/
theorem killSpawn_other (noLast : s.lastPlayerSpell = none) {id : UInt16} (ne : id ≠ w.playerId)
    : s.killSpawn w id
      = { s with
          spellList := s.spellList.filter fun i => i.targetId ≠ id
          targetEffects := s.targetEffects.filter fun i => i.targetId ≠ id }.rest := by
  simp only [SpellShell.killSpawn, if_neg ne, noLast, Option.bind_none, Option.any_none,
    Bool.false_eq_true, if_false, SpellShell.rest]

theorem WellFormed.killSpawn (wf : s.WellFormed) (w : SpellWorld) (id : UInt16)
    : (s.killSpawn w id).WellFormed := by
  by_cases player : id = w.playerId
  · rw [SpellShell.killSpawn, if_pos player]
    exact .clear s
  · rw [killSpawn_other wf.noLast player]
    apply WellFormed.rest
    exact wf.of_sublist wf.noLast rfl (List.filter_sublist.map _) (List.filter_sublist.map _)

theorem WellFormed.delSpawn (wf : s.WellFormed) (despawned : Option UInt16)
    : (s.delSpawn despawned).WellFormed := by
  cases despawned with
  | none => exact wf
  | some id =>
      have kept : { s with
          targetEffects := s.targetEffects.filter fun i => i.targetId ≠ id }.WellFormed :=
        wf.of_sublist wf.noLast rfl (.refl _) (List.filter_sublist.map _)
      simp only [SpellShell.delSpawn]
      split_ifs
      · exact kept.stop
      · exact kept

theorem sweep_address {i j : SpellItem} (kept : sweep w i = some j) : j.address = i.address := by
  simp only [sweep] at kept
  split_ifs at kept
  · rw [← Option.some.inj kept]
  · rw [← Option.some.inj kept]

/-- With no last spell to forget, the sweep goes through both lists. -/
theorem timeout_eq (noLast : s.lastPlayerSpell = none)
    : s.timeout w
      = { s with
          spellList := s.spellList.filterMap (sweep w)
          targetEffects := s.targetEffects.filterMap (sweep w) }.rest := by
  have unforgotten : (s.spellList.any fun i =>
      (sweep w i).isNone && decide (s.lastPlayerSpell = some i.address)) = false := by
    simp [noLast]
  simp only [SpellShell.timeout, unforgotten, Bool.false_eq_true, if_false, SpellShell.rest]

theorem WellFormed.timeout (wf : s.WellFormed) (w : SpellWorld) : (s.timeout w).WellFormed := by
  rw [timeout_eq wf.noLast]
  apply WellFormed.rest
  exact wf.of_sublist wf.noLast rfl (addresses_filterMap fun _ _ => sweep_address)
    (addresses_filterMap fun _ _ => sweep_address)

/-- Every operation keeps the lists well formed. -/
theorem WellFormed.run (wf : s.WellFormed) (op : SpellOp) : (op.run s).WellFormed := by
  cases op with
  | buffLoad w spellid ticks => exact wf.buffLoad w spellid ticks
  | buff w fromClient out => exact wf.buff w fromClient out
  | buffList w fromClient entries => exact wf.buffList w fromClient entries
  | action w out => exact wf.action w out
  | simpleMessage messageFormat =>
      rw [SpellOp.run, wf.simpleMessage]
      exact wf
  | spellMessage str => exact wf.spellMessage str
  | zoneChanged => exact wf.zoneChanged
  | killSpawn w id => exact wf.killSpawn w id
  | delSpawn despawned => exact wf.delSpawn despawned
  | deleteSpell item => exact wf.deleteSpell item
  | timeout w => exact wf.timeout w
  | clear => exact .clear s

end SpellShell

end Scry
