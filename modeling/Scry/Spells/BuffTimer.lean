import Scry.Spells.BuffList

/-! The timer against what it has to count down. It should run exactly where a list has an item;
every operation sees to this but two: `deleteSpell` looks at one list only, and a mob's list reaps
effects without looking.
-/

namespace Scry

open BuffEntry (IsSpell)

variable {s : SpellShell} {w : SpellWorld} {entries : List BuffEntry}

namespace SpellShell

-----------------------------------------------------------------------------------------
-- The timer and the lists
-----------------------------------------------------------------------------------------

/-- The timer runs where an item can count down, and is stopped where there is no item. -/
structure TimerRight (s : SpellShell) : Prop where
  runs : (∃ i ∈ s.spellList ++ s.targetEffects, i.isPermanent = false) → s.timerActive = true
  rests : s.spellList = [] → s.targetEffects = [] → s.timerActive = false

/-- Neither list has an item. -/
def idle (s : SpellShell) : Bool := s.spellList.isEmpty && s.targetEffects.isEmpty

/-- The timer runs exactly where a list has an item. -/
def Ticks (s : SpellShell) : Prop := s.timerActive = !s.idle

theorem Ticks.timerRight (ticks : s.Ticks) : s.TimerRight where
  runs := by
    rintro ⟨i, member, _⟩
    have filled : s.idle = false := by
      rcases List.mem_append.mp member with spell | effect
      · simp [idle, List.ne_nil_of_mem spell]
      · simp [idle, List.ne_nil_of_mem effect]
    rw [ticks, filled]
    rfl
  rests spells effects := by
    rw [ticks, idle, spells, effects]
    rfl

theorem ticks_fresh : fresh.Ticks := rfl

theorem idle_iff : s.idle = true ↔ s.spellList = [] ∧ s.targetEffects = [] := by
  rw [idle, Bool.and_eq_true, List.isEmpty_iff, List.isEmpty_iff]

theorem ticks_of_filled (active : s.timerActive = true)
    (filled : ¬ (s.spellList = [] ∧ s.targetEffects = []))
    : s.Ticks := by
  rw [Ticks, active, Bool.eq_false_iff.mpr (mt idle_iff.mp filled)]
  rfl

/-- With a list that has an item, the timer runs. -/
theorem Ticks.active (ticks : s.Ticks) (filled : ¬ (s.spellList = [] ∧ s.targetEffects = []))
    : s.timerActive = true := by
  rw [ticks, Bool.eq_false_iff.mpr (mt idle_iff.mp filled)]
  rfl

/-- A stopped timer is right where both lists are empty. -/
theorem ticks_stopped_iff (stopped : s.timerActive = false)
    : s.Ticks ↔ s.spellList = [] ∧ s.targetEffects = [] := by
  rw [Ticks, stopped, ← idle_iff]
  cases s.idle <;> decide

/-- What leaves the timer and the lists' being empty alone leaves the one right for the other. -/
theorem Ticks.of_same (ticks : s.Ticks) {t : SpellShell} (timer : t.timerActive = s.timerActive)
    (same : t.idle = s.idle)
    : t.Ticks := by
  rw [Ticks, timer, same]
  exact ticks

theorem idle_setSpell (address : Nat) (f : SpellItem → SpellItem)
    : (s.setSpell address f).idle = s.idle := by
  simp [idle, setSpell, modifyAt]

theorem idle_setEffect (address : Nat) (f : SpellItem → SpellItem)
    : (s.setEffect address f).idle = s.idle := by
  simp [idle, setEffect, modifyAt]

theorem Ticks.setSpell (ticks : s.Ticks) (address : Nat) (f : SpellItem → SpellItem)
    : (s.setSpell address f).Ticks :=
  ticks.of_same rfl (idle_setSpell address f)

theorem Ticks.setEffect (ticks : s.Ticks) (address : Nat) (f : SpellItem → SpellItem)
    : (s.setEffect address f).Ticks :=
  ticks.of_same rfl (idle_setEffect address f)

@[simp]
theorem start_timerActive : s.start.timerActive = true := by
  rw [start]
  split_ifs with stopped
  · rfl
  · simpa using stopped

theorem start_idle : s.start.idle = s.idle := by
  rw [start]
  split_ifs <;> rfl

theorem ticks_start (filled : s.idle = false) : s.start.Ticks := by
  rw [Ticks, start_timerActive, start_idle, filled]
  rfl

theorem ticks_appendSpell (f : SpellItem → SpellItem) : (s.appendSpell f).start.Ticks :=
  ticks_start (by simp [idle, appendSpell])

theorem ticks_appendEffect (f : SpellItem → SpellItem) : (s.appendEffect f).start.Ticks :=
  ticks_start (by simp [idle, appendEffect])

/-- Stopping where nothing is left is right if the timer runs where something is. -/
theorem ticks_rest
    (active : ¬ (s.spellList = [] ∧ s.targetEffects = []) → s.timerActive = true)
    : s.rest.Ticks := by
  rw [rest]
  split_ifs with none
  · exact (ticks_stopped_iff rfl).mpr none
  · exact ticks_of_filled (active none) none

/-- What has something left of it had something. -/
theorem Ticks.active_of_kept (ticks : s.Ticks) {t : SpellShell}
    (spells : s.spellList = [] → t.spellList = [])
    (effects : s.targetEffects = [] → t.targetEffects = [])
    (filled : ¬ (t.spellList = [] ∧ t.targetEffects = []))
    : s.timerActive = true :=
  ticks.active fun none => filled ⟨spells none.1, effects none.2⟩

-----------------------------------------------------------------------------------------
-- What spares the timer
-----------------------------------------------------------------------------------------

/-- Deleting the item at an address would leave effects and no other item. -/
def Strands (s : SpellShell) (address : Nat) : Prop :=
  s.targetEffects ≠ [] ∧ ∀ i ∈ s.spellList, i.address = address

/-- The item that a record fades. -/
def faded (s : SpellShell) (w : SpellWorld) (out : BuffRecord) : Option SpellItem :=
  if out.form = 0 ∧ (w.playerId = 0 ∨ out.spawnId = w.playerId.toUInt32) ∧ IsSpell out.spellId
  then s.findSpell out.spellId out.spawnId.toUInt16 ""
  else none

/-- The list names a spell, or an item that it would not drop. -/
def Leaves (items : List SpellItem) (drops : SpellItem → Bool) (entries : List BuffEntry)
    : Prop :=
  (∃ e ∈ entries, IsSpell e.spellId) ∨ ∃ i ∈ items, drops i = false

/-- The operation does not take the last item of the spell list while there are effects, and a
mob's list does not take the last item of all.
-/
def Spares (s : SpellShell) : SpellOp → Prop
  | .deleteSpell item => ∀ address, item = some address → ¬ s.Strands address
  | .buff w false (some out) => ∀ i, s.faded w out = some i → ¬ s.Strands i.address
  | .buffList w false (first :: rest) =>
      match buffListMob w first.spawnId with
      | some _ =>
          s.spellList ≠ [] ∨ s.targetEffects = []
            ∨ Leaves s.targetEffects (isReaped w first.spawnId.toUInt16 (first :: rest))
                (first :: rest)
      | none =>
          s.spellList = [] ∨ s.targetEffects = []
            ∨ Leaves (kept w s.spellList) (isStale (first :: rest)) (first :: rest)
  | _ => True

-----------------------------------------------------------------------------------------
-- Deletions
-----------------------------------------------------------------------------------------

/-- Where addresses are unique, erasing one leaves nothing if nothing is elsewhere. -/
theorem eraseP_eq_nil_iff {items : List SpellItem} (unique : (addresses items).Nodup)
    (address : Nat)
    : (items.eraseP fun i => i.address = address) = [] ↔ ∀ i ∈ items, i.address = address := by
  have erased := Keyed.foldl_eraseP_filter unique fun i : SpellItem => i.address = address
  constructor
  · intro none i member
    by_contra elsewhere
    have stays := (List.mem_eraseP_of_neg (p := fun i : SpellItem => i.address = address)
      (by simpa using elsewhere)).mpr member
    rw [none] at stays
    cases stays
  · intro all
    cases items with
    | nil => rfl
    | cons i rest =>
        have here := all i List.mem_cons_self
        rw [List.eraseP_cons_of_pos (by simpa using here)]
        cases rest with
        | nil => rfl
        | cons j more =>
            have there := all j (by simp)
            have twice := (List.nodup_cons.mp unique).1
            exact absurd (List.mem_map.mpr ⟨j, by simp, there.trans here.symm⟩) twice

theorem ticks_deleteSpell (wf : s.WellFormed) (ticks : s.Ticks) (item : Option Nat)
    : (s.deleteSpell item).Ticks ↔ ∀ address, item = some address → ¬ s.Strands address := by
  cases item with
  | none => exact iff_of_true ticks nofun
  | some address =>
      have alone := eraseP_eq_nil_iff wf.spells address
      rw [deleteSpell_some wf.noLast]
      have only : (∀ a, some address = some a → ¬ s.Strands a) ↔ ¬ s.Strands address :=
        ⟨fun all => all address rfl, fun one a same => Option.some.inj same ▸ one⟩
      rw [only, Strands, ← alone, Ticks, idle]
      by_cases none : (s.spellList.eraseP fun i => i.address = address) = []
      · simp [none, List.isEmpty_iff]
      · have filled : s.spellList ≠ [] := by
          rintro empty
          rw [empty] at none
          exact none rfl
        have active : s.timerActive = true := by
          rw [ticks, idle]
          simp [filled]
        simp [none, active]

/-- Where the timer runs for the list that is there, it runs after a deletion for what is left. -/
theorem deleteSpells_timerActive (wf : s.WellFormed)
    (active : s.spellList ≠ [] → s.timerActive = true) (p : SpellItem → Bool)
    : (s.deleteSpells (s.spellList.filter p)).timerActive
      = if s.spellList = [] then s.timerActive
        else !(s.spellList.filter fun i => !p i).isEmpty := by
  rw [deleteSpells_filter wf]
  split_ifs with none
  · simp [none]
  · rw [active none, Bool.true_and]
    cases gone : (s.spellList.filter p).isEmpty with
    | false => rfl
    | true =>
        have all : ∀ i ∈ s.spellList, ¬ p i = true :=
          List.filter_eq_nil_iff.mp (List.isEmpty_iff.mp gone)
        have stay : (s.spellList.filter fun i => !p i) = s.spellList :=
          List.filter_eq_self.mpr fun i member => by simpa using all i member
        simp [stay, none]

-----------------------------------------------------------------------------------------
-- Entries
-----------------------------------------------------------------------------------------

/-- What entries do to a list, seen through a view that no refresh changes: new items come at the
end, each for an entry, and every spell that is listed is there. The flag tells of new items.
-/
structure Merged {β : Type} (spell : β → UInt32) (entries : List BuffEntry)
    (before : List β × Bool) (after : List β × Bool) : Prop where
  grown
    : ∃ new, after.1 = before.1 ++ new
        ∧ after.2 = (before.2 || !new.isEmpty)
        ∧ ∀ i ∈ new, ∃ e ∈ entries, IsSpell e.spellId ∧ spell i = e.spellId
  present : ∀ e ∈ entries, IsSpell e.spellId → ∃ i ∈ after.1, spell i = e.spellId

/-- One run of entries after another. -/
theorem Merged.append {β : Type} {spell : β → UInt32} {first second : List BuffEntry}
    {a b c : List β × Bool} (left : Merged spell first a b) (right : Merged spell second b c)
    : Merged spell (first ++ second) a c := by
  obtain ⟨new, grown, flag, source⟩ := left.grown
  obtain ⟨more, grown', flag', source'⟩ := right.grown
  constructor
  · refine ⟨new ++ more, by rw [grown', grown, List.append_assoc], ?_, ?_⟩
    · rw [flag', flag, Bool.or_assoc]
      cases new with
      | nil => rfl
      | cons i rest => simp
    · intro i member
      rcases List.mem_append.mp member with early | late
      · obtain ⟨e, listed, about⟩ := source i early
        exact ⟨e, List.mem_append_left _ listed, about⟩
      · obtain ⟨e, listed, about⟩ := source' i late
        exact ⟨e, List.mem_append_right _ listed, about⟩
  · intro e member real
    rcases List.mem_append.mp member with early | late
    · obtain ⟨i, there, about⟩ := left.present e early real
      exact ⟨i, grown' ▸ List.mem_append_left _ there, about⟩
    · exact right.present e late real

/-- What holds of each entry holds of them all, by induction on them. -/
theorem Merged.foldl {β : Type} {spell : β → UInt32} (view : SpellShell × Bool → List β)
    {f : SpellShell × Bool → BuffEntry → SpellShell × Bool}
    (one : ∀ r e, Merged spell [e] (view r, r.2) (view (f r e), (f r e).2))
    (r : SpellShell × Bool) (entries : List BuffEntry)
    : Merged spell entries (view r, r.2)
        (view (entries.foldl f r), (entries.foldl f r).2) := by
  induction entries generalizing r with
  | nil => exact ⟨⟨[], by simp, by simp, nofun⟩, nofun⟩
  | cons e rest ih => exact (one r e).append (ih (f r e))

/-- One entry, by whether its spell is found, added or none. -/
theorem Merged.single {β : Type} {spell : β → UInt32} {e : BuffEntry} {before after : List β × Bool}
    (step : (¬ IsSpell e.spellId ∧ after = before)
      ∨ (after = before ∧ ∃ i ∈ before.1, spell i = e.spellId)
      ∨ (IsSpell e.spellId ∧ ∃ i, after = (before.1 ++ [i], true) ∧ spell i = e.spellId))
    : Merged spell [e] before after := by
  rcases step with ⟨marker, rfl⟩ | ⟨rfl, i, there, about⟩ | ⟨real, i, rfl, about⟩
  · refine ⟨⟨[], by simp, by simp, nofun⟩, ?_⟩
    intro other member real
    exact absurd (List.mem_singleton.mp member ▸ real) marker
  · refine ⟨⟨[], by simp, by simp, nofun⟩, ?_⟩
    intro other member _
    exact ⟨i, there, List.mem_singleton.mp member ▸ about⟩
  · refine ⟨⟨[i], rfl, by simp, ?_⟩, ?_⟩
    · intro j member
      exact ⟨e, List.mem_singleton_self e, real, List.mem_singleton.mp member ▸ about⟩
    · intro other member _
      exact ⟨i, by simp, List.mem_singleton.mp member ▸ about⟩

/-- What is left after the drops: something where the list names a spell, for its item stays, or
where an item that was there is not dropped.
-/
theorem Merged.filter_ne_nil {β : Type} {spell : β → UInt32} {before after : List β × Bool}
    (merged : Merged spell entries before after) {drops : β → Bool}
    (listed : ∀ i, (∃ e ∈ entries, e.spellId = spell i) → drops i = false)
    : (after.1.filter fun i => !drops i) ≠ []
      ↔ (∃ e ∈ entries, IsSpell e.spellId) ∨ ∃ i ∈ before.1, drops i = false := by
  obtain ⟨new, grown, _, source⟩ := merged.grown
  have filled : (after.1.filter fun i => !drops i) ≠ [] ↔ ∃ i ∈ after.1, drops i = false := by
    rw [ne_eq, List.filter_eq_nil_iff]
    simp
  rw [filled]
  constructor
  · rintro ⟨i, there, stays⟩
    rw [grown] at there
    rcases List.mem_append.mp there with old | added
    · exact .inr ⟨i, old, stays⟩
    · obtain ⟨e, member, real, _⟩ := source i added
      exact .inl ⟨e, member, real⟩
  · rintro (⟨e, member, real⟩ | ⟨i, old, stays⟩)
    · obtain ⟨i, there, about⟩ := merged.present e member real
      exact ⟨i, there, listed i ⟨e, member, about.symm⟩⟩
    · exact ⟨i, grown ▸ List.mem_append_left _ old, stays⟩

/-- A change that a view does not see. -/
theorem map_modifyAt {β : Type} {view : SpellItem → β} {f : SpellItem → SpellItem}
    (unseen : ∀ i, view (f i) = view i) (address : Nat) (items : List SpellItem)
    : (modifyAt address f items).map view = items.map view := by
  rw [modifyAt, List.map_map]
  apply List.map_congr_left
  intro i _
  simp only [Function.comp_apply]
  split_ifs
  · exact unseen i
  · rfl

theorem merged_playerEntry (w : SpellWorld) (r : SpellShell × Bool) (e : BuffEntry)
    : Merged id [e] (r.1.spellList.map SpellItem.spellId, r.2)
        ((playerEntry w r e).1.spellList.map SpellItem.spellId, (playerEntry w r e).2) := by
  apply Merged.single
  rw [playerEntry]
  by_cases real : IsSpell e.spellId
  · rw [if_neg (not_not_intro real)]
    cases found : r.1.findSpell e.spellId w.playerId w.playerName with
    | some i =>
        have member := List.mem_of_find?_eq_some found
        have about : i.spellId = e.spellId := by
          have holds := List.find?_some found
          simp only [matchesOwner, Bool.and_eq_true, decide_eq_true_eq] at holds
          exact holds.1
        exact .inr (.inl ⟨Prod.ext (map_modifyAt e.refresh_spellId _ _) rfl,
          i.spellId, List.mem_map_of_mem member, about⟩)
    | none =>
        exact .inr (.inr ⟨real, e.spellId, by simp [appendSpell, fill_spellId], rfl⟩)
  · rw [if_pos real]
    exact .inl ⟨real, rfl⟩

/-- What the reaping of effects looks at. -/
def reapView (i : SpellItem) : UInt32 × UInt16 × UInt16 := (i.spellId, i.targetId, i.casterId)

theorem refresh_reapView (e : BuffEntry) (i : SpellItem) : reapView (e.refresh i) = reapView i :=
  rfl

theorem merged_mobEntry (w : SpellWorld) (mobId : UInt16) (mobName : String)
    (r : SpellShell × Bool) (e : BuffEntry)
    : Merged Prod.fst [e] (r.1.targetEffects.map reapView, r.2)
        ((mobEntry w mobId mobName r e).1.targetEffects.map reapView,
          (mobEntry w mobId mobName r e).2) := by
  apply Merged.single
  rw [mobEntry]
  by_cases real : IsSpell e.spellId
  · rw [if_neg (not_not_intro real)]
    cases found : r.1.findEffect e.spellId mobId with
    | some i =>
        have member := List.mem_of_find?_eq_some found
        have about : i.spellId = e.spellId := by
          have holds := List.find?_some found
          simp only [Bool.and_eq_true, decide_eq_true_eq] at holds
          exact holds.1
        exact .inr (.inl ⟨Prod.ext (map_modifyAt (refresh_reapView e) _ _) rfl,
          reapView i, List.mem_map_of_mem member, about⟩)
    | none =>
        let new := e.fill w mobId mobName { address := r.1.nextAddress }
        exact .inr (.inr ⟨real, reapView new, by simp [appendEffect, new],
          fill_spellId e mobId mobName _⟩)
  · rw [if_pos real]
    exact .inl ⟨real, rfl⟩

/-- The entries of the player leave the effects and the timer alone. -/
theorem playerEntries_rest (w : SpellWorld) (r : SpellShell × Bool) (entries : List BuffEntry)
    : (entries.foldl (playerEntry w) r).1.targetEffects = r.1.targetEffects
      ∧ (entries.foldl (playerEntry w) r).1.timerActive = r.1.timerActive := by
  induction entries generalizing r with
  | nil => exact ⟨rfl, rfl⟩
  | cons e rest ih =>
      have one : (playerEntry w r e).1.targetEffects = r.1.targetEffects
          ∧ (playerEntry w r e).1.timerActive = r.1.timerActive := by
        rw [playerEntry]
        by_cases real : IsSpell e.spellId
        · rw [if_neg (not_not_intro real)]
          split <;> exact ⟨rfl, rfl⟩
        · rw [if_pos real]
          exact ⟨rfl, rfl⟩
      exact ⟨(ih _).1.trans one.1, (ih _).2.trans one.2⟩

/-- The entries of a mob leave the spells and the timer alone. -/
theorem mobEntries_rest (w : SpellWorld) (mobId : UInt16) (mobName : String)
    (r : SpellShell × Bool) (entries : List BuffEntry)
    : (entries.foldl (mobEntry w mobId mobName) r).1.spellList = r.1.spellList
      ∧ (entries.foldl (mobEntry w mobId mobName) r).1.timerActive = r.1.timerActive := by
  induction entries generalizing r with
  | nil => exact ⟨rfl, rfl⟩
  | cons e rest ih =>
      have one : (mobEntry w mobId mobName r e).1.spellList = r.1.spellList
          ∧ (mobEntry w mobId mobName r e).1.timerActive = r.1.timerActive := by
        rw [mobEntry]
        by_cases real : IsSpell e.spellId
        · rw [if_neg (not_not_intro real)]
          split <;> exact ⟨rfl, rfl⟩
        · rw [if_pos real]
          exact ⟨rfl, rfl⟩
      exact ⟨(ih _).1.trans one.1, (ih _).2.trans one.2⟩

-----------------------------------------------------------------------------------------
-- The lists of buffs
-----------------------------------------------------------------------------------------

/-- What a drop decides by a view is decided on the viewed list. -/
theorem filter_eq_nil_iff_view {β : Type} {view : SpellItem → β} {drops : SpellItem → Bool}
    {dropsView : β → Bool} (same : ∀ i, drops i = dropsView (view i)) (items : List SpellItem)
    : (items.filter fun i => !drops i) = []
      ↔ ((items.map view).filter fun v => !dropsView v) = [] := by
  rw [List.filter_map, List.map_eq_nil_iff]
  have comp : ((fun v => !dropsView v) ∘ view) = fun i => !drops i := by
    funext i
    rw [Function.comp_apply, same i]
  rw [comp]

/-- What the player's list leaves. -/
theorem playerEntries_leave (w : SpellWorld) (r : SpellShell × Bool) (entries : List BuffEntry)
    : ((entries.foldl (playerEntry w) r).1.spellList.filter fun i => !isStale entries i) ≠ []
      ↔ Leaves r.1.spellList (isStale entries) entries := by
  let dropsView : UInt32 → Bool := fun v => !entries.any fun e => e.spellId = v
  have merged := Merged.foldl (fun r => r.1.spellList.map SpellItem.spellId)
    (merged_playerEntry w) r entries
  have same : ∀ i, isStale entries i = dropsView i.spellId := fun _ => rfl
  rw [ne_eq, filter_eq_nil_iff_view same]
  refine (merged.filter_ne_nil fun v => ?_).trans ?_
  · rintro ⟨e, member, about⟩
    simp only [dropsView, Bool.not_eq_false', List.any_eq_true, decide_eq_true_eq]
    exact ⟨e, member, about⟩
  · simp only [Leaves, List.mem_map, exists_exists_and_eq_and]
    rfl

/-- What a mob's list leaves. -/
theorem mobEntries_leave (w : SpellWorld) (mobId : UInt16) (mobName : String)
    (r : SpellShell × Bool) (entries : List BuffEntry)
    : ((entries.foldl (mobEntry w mobId mobName) r).1.targetEffects.filter
          fun i => !isReaped w mobId entries i) ≠ []
      ↔ Leaves r.1.targetEffects (isReaped w mobId entries) entries := by
  let dropsView : UInt32 × UInt16 × UInt16 → Bool := fun v =>
    if v.2.1 ≠ mobId ∨ v.2.2 = w.playerId then false
    else !entries.any fun e => e.spellId = v.1
  have merged := Merged.foldl (fun r => r.1.targetEffects.map reapView)
    (merged_mobEntry w mobId mobName) r entries
  have same : ∀ i, isReaped w mobId entries i = dropsView (reapView i) := fun _ => rfl
  rw [ne_eq, filter_eq_nil_iff_view same]
  refine (merged.filter_ne_nil fun v => ?_).trans ?_
  · rintro ⟨e, member, about⟩
    simp only [dropsView]
    split_ifs
    · rfl
    · simp only [Bool.not_eq_false', List.any_eq_true, decide_eq_true_eq]
      exact ⟨e, member, about⟩
  · simp only [Leaves, List.mem_map, exists_exists_and_eq_and]
    rfl

/-- A new item is of a spell that is listed. -/
theorem Merged.leaves {β : Type} {spell : β → UInt32} {before after : List β × Bool}
    (merged : Merged spell entries before after) (quiet : before.2 = false)
    : (after.2 = true → ∃ e ∈ entries, IsSpell e.spellId)
      ∧ (after.2 = false → after.1 = before.1) := by
  obtain ⟨new, grown, flag, source⟩ := merged.grown
  rw [quiet, Bool.false_or] at flag
  constructor
  · intro added
    cases new with
    | nil => simp [flag] at added
    | cons i rest =>
        obtain ⟨e, member, real, _⟩ := source i List.mem_cons_self
        exact ⟨e, member, real⟩
  · intro none
    rw [flag, Bool.not_eq_false', List.isEmpty_iff] at none
    rw [grown, none, List.append_nil]

/-- A mob's list leaves the timer right exactly where something keeps it running, or it leaves
something.
-/
theorem ticks_mobBuffList (wf : s.WellFormed) (ticks : s.Ticks) (w : SpellWorld)
    (mobId : UInt16) (mobName : String) (entries : List BuffEntry)
    : (s.mobBuffList w mobId mobName entries).Ticks
      ↔ s.spellList ≠ [] ∨ s.targetEffects = []
          ∨ Leaves s.targetEffects (isReaped w mobId entries) entries := by
  have merged := wf.mobEntries w mobId mobName entries
  obtain ⟨spells, timer⟩ := mobEntries_rest w mobId mobName (s, false) entries
  have leaves := mobEntries_leave w mobId mobName (s, false) entries
  obtain ⟨listed, unchanged⟩ :=
    (Merged.foldl _ (merged_mobEntry w mobId mobName) (s, false) entries).leaves rfl
  rw [mobBuffList]
  dsimp only at spells timer leaves listed unchanged ⊢
  rw [Keyed.foldl_eraseP_filter merged.effects]
  generalize entries.foldl (mobEntry w mobId mobName) (s, false) = m at *
  cases added : m.2 with
  | true =>
      have left : Leaves s.targetEffects (isReaped w mobId entries) entries := .inl (listed added)
      refine iff_of_true ?_ (.inr (.inr left))
      apply ticks_start
      exact Bool.eq_false_iff.mpr (mt idle_iff.mp fun none => leaves.mpr left none.2)
  | false =>
      have sameEmpty : m.1.targetEffects = [] ↔ s.targetEffects = [] := by
        rw [← List.map_eq_nil_iff (f := reapView), unchanged added, List.map_eq_nil_iff]
      simp only [Bool.false_eq_true, if_false]
      by_cases left : Leaves s.targetEffects (isReaped w mobId entries) entries
      · have stays := leaves.mpr left
        have active : s.timerActive = true := by
          apply ticks.active
          rintro ⟨_, none⟩
          rw [sameEmpty.mpr none] at stays
          exact stays rfl
        exact iff_of_true (ticks_of_filled (timer.trans active) fun none => stays none.2)
          (.inr (.inr left))
      · have none := not_not.mp (mt leaves.mp left)
        have only : (s.spellList ≠ [] ∨ s.targetEffects = []
            ∨ Leaves s.targetEffects (isReaped w mobId entries) entries)
            ↔ s.spellList ≠ [] ∨ s.targetEffects = [] :=
          ⟨fun any => any.imp_right fun rest => rest.resolve_right left,
            fun any => any.imp_right .inl⟩
        rw [only, Ticks, idle, none, timer, spells, ticks, idle]
        cases s.spellList <;> cases s.targetEffects <;> simp

/-- What the first deletions make of the timer. -/
theorem dropOrphans_timerActive (wf : s.WellFormed) (ticks : s.Ticks) (w : SpellWorld)
    : (s.dropOrphans w).timerActive
      = if s.spellList = [] then s.timerActive else !(kept w s.spellList).isEmpty := by
  have active : s.spellList ≠ [] → s.timerActive = true := fun filled =>
    ticks.active fun none => filled none.1
  rw [dropOrphans]
  split_ifs with named none none
  · rw [deleteSpells_timerActive wf active, if_pos none]
  · rw [deleteSpells_timerActive wf active, if_neg none]
    simp [kept, named]
  · rfl
  · rw [active none]
    simp [kept, named, none]

theorem dropOrphans_targetEffects (wf : s.WellFormed) (w : SpellWorld)
    : (s.dropOrphans w).targetEffects = s.targetEffects := by
  rw [dropOrphans]
  split_ifs
  · rw [deleteSpells_filter wf]
  · rfl

/-- A list of the player's leaves the timer right exactly where it had nothing to stop it for, or
leaves something.
-/
theorem ticks_playerBuffList (wf : s.WellFormed) (ticks : s.Ticks) (w : SpellWorld)
    (entries : List BuffEntry)
    : (s.playerBuffList w entries).Ticks
      ↔ s.spellList = [] ∨ s.targetEffects = []
          ∨ Leaves (kept w s.spellList) (isStale entries) entries := by
  have merged := (wf.dropOrphans w).playerEntries w entries
  obtain ⟨effects, timer⟩ := playerEntries_rest w (s.dropOrphans w, false) entries
  have leaves := playerEntries_leave w (s.dropOrphans w, false) entries
  obtain ⟨listed, unchanged⟩ :=
    (Merged.foldl _ (merged_playerEntry w) (s.dropOrphans w, false) entries).leaves rfl
  rw [playerBuffList]
  dsimp only at effects timer leaves listed unchanged ⊢
  rw [dropOrphans_targetEffects wf] at effects
  rw [dropOrphans_timerActive wf ticks] at timer
  rw [dropOrphans_spellList wf] at leaves unchanged
  generalize entries.foldl (playerEntry w) (s.dropOrphans w, false) = m at *
  cases added : m.2 with
  | true =>
      have left : Leaves (kept w s.spellList) (isStale entries) entries := .inl (listed added)
      refine iff_of_true ?_ (.inr (.inr left))
      apply ticks_start
      rw [deleteSpells_filter merged]
      exact Bool.eq_false_iff.mpr (mt idle_iff.mp fun none => leaves.mpr left none.1)
  | false =>
      have sameEmpty : m.1.spellList = [] ↔ kept w s.spellList = [] := by
        rw [← List.map_eq_nil_iff (f := SpellItem.spellId), unchanged added, List.map_eq_nil_iff]
      have active : m.1.spellList ≠ [] → m.1.timerActive = true := by
        intro filled
        have keeps := sameEmpty.not.mp filled
        have some : s.spellList ≠ [] := by
          rintro none
          rw [kept, none] at keeps
          exact keeps rfl
        rw [timer, if_neg some]
        simp [keeps]
      have final := deleteSpells_timerActive merged active (isStale entries)
      have list : (m.1.deleteSpells (m.1.spellList.filter (isStale entries))).spellList
          = m.1.spellList.filter fun i => !isStale entries i := by
        rw [deleteSpells_filter merged]
      have others : (m.1.deleteSpells (m.1.spellList.filter (isStale entries))).targetEffects
          = s.targetEffects := by
        rw [deleteSpells_filter merged, effects]
      simp only [Bool.false_eq_true, if_false]
      rw [Ticks, idle, final, list, others]
      by_cases left : Leaves (kept w s.spellList) (isStale entries) entries
      · have stays := leaves.mpr left
        have some : m.1.spellList ≠ [] := by
          rintro none
          rw [none] at stays
          exact stays rfl
        rw [if_neg some]
        refine iff_of_true ?_ (.inr (.inr left))
        simp only [ne_eq, ← List.isEmpty_iff, Bool.not_eq_true] at stays
        rw [stays]
        rfl
      · have none := not_not.mp (mt leaves.mp left)
        have only : (s.spellList = [] ∨ s.targetEffects = []
            ∨ Leaves (kept w s.spellList) (isStale entries) entries)
            ↔ s.spellList = [] ∨ s.targetEffects = [] :=
          ⟨fun any => any.imp_right fun rest => rest.resolve_right left,
            fun any => any.imp_right .inl⟩
        rw [only, none]
        by_cases empty : s.spellList = []
        · have keeps : m.1.spellList = [] := sameEmpty.mpr (by rw [empty]; rfl)
          rw [if_pos keeps, timer, if_pos empty, ticks, idle, empty]
          simp
        · have stopped : (if m.1.spellList = [] then m.1.timerActive
              else !([] : List SpellItem).isEmpty) = false := by
            split_ifs with gone
            · rw [timer, if_neg empty, sameEmpty.mp gone]
              rfl
            · rfl
          rw [stopped]
          simp [empty, List.isEmpty_iff]

-----------------------------------------------------------------------------------------
-- Every operation
-----------------------------------------------------------------------------------------

theorem ticks_applyBuff (ticks : s.Ticks) (w : SpellWorld) (spellId : UInt32) (owner : UInt16)
    (duration : Int32) (slot : UInt8)
    : (s.applyBuff w spellId owner duration slot).Ticks := by
  rw [applyBuff]
  split
  · exact ticks.setSpell _ _
  · exact ticks_appendSpell _

/-- A record leaves the timer right exactly where what it fades strands no effects. -/
theorem ticks_buff (wf : s.WellFormed) (ticks : s.Ticks) (w : SpellWorld) (out : BuffRecord)
    : (s.buff w false (some out)).Ticks
      ↔ ∀ i, s.faded w out = some i → ¬ s.Strands i.address := by
  by_cases fades : out.form = 0 ∧ (w.playerId = 0 ∨ out.spawnId = w.playerId.toUInt32)
      ∧ IsSpell out.spellId
  · obtain ⟨form, about, spell⟩ := fades
    have wide : ¬ out.form = 3 := by
      rw [form]
      decide
    have concerned : ¬ (¬ out.form = 3 ∧ w.playerId ≠ 0 ∧ out.spawnId ≠ w.playerId.toUInt32) := by
      rintro ⟨_, known, other⟩
      rcases about with unknown | same
      · exact known unknown
      · exact other same
    have unmarked : ¬ (out.spellId = 0xffffffff ∨ out.spellId = 0) := fun marker =>
      spell marker.symm
    have fade : s.buff w false (some out)
        = s.deleteSpell ((s.findSpell out.spellId out.spawnId.toUInt16 "").map (·.address)) := by
      simp only [buff, Bool.false_eq_true, if_false, if_neg concerned, if_neg unmarked,
        if_neg wide, if_pos form]
    rw [fade, ticks_deleteSpell wf ticks, faded, if_pos ⟨form, about, spell⟩]
    constructor
    · intro spared i found
      exact spared i.address (by rw [found]; rfl)
    · intro spared address found
      obtain ⟨i, there, rfl⟩ := Option.map_eq_some_iff.mp found
      exact spared i there
  · apply iff_of_true
    · simp only [buff, Bool.false_eq_true, if_false]
      split_ifs with other marker compact form
      · exact ticks
      · exact ticks
      · exact ticks
      · refine absurd ⟨form, ?_, fun m => marker m.symm⟩ fades
        by_contra away
        push Not at away
        exact other ⟨compact, away⟩
      all_goals first | exact ticks | exact ticks_applyBuff ticks w _ _ _ _
    · rw [faded, if_neg fades]
      exact nofun

theorem Ticks.action (ticks : s.Ticks) (w : SpellWorld) (out : Option ActionRecord)
    : (s.action w out).Ticks := by
  cases out with
  | none => exact ticks
  | some a =>
      simp only [SpellShell.action]
      by_cases other : a.type ≠ 0xe7
      · rw [if_pos other]
        exact ticks
      rw [if_neg other]
      cases s.findSpell a.spell.toUInt32 a.target (nameOf w a.target) with
      | some item => exact ticks.setSpell _ _
      | none =>
          cases s.findEffect a.spell.toUInt32 a.target with
          | some eff =>
              dsimp only
              split_ifs
              · exact ticks_appendSpell _
              · exact ticks
              · exact ticks
              · exact ticks.setEffect _ _
              · exact ticks
          | none =>
              dsimp only
              split_ifs
              · exact ticks_appendSpell _
              · exact ticks
              · exact ticks
              · exact ticks_appendEffect _
              · exact ticks

theorem Ticks.zoneChanged (ticks : s.Ticks) : s.zoneChanged.Ticks := by
  simp only [SpellShell.zoneChanged]
  split_ifs with effects none
  · exact (ticks_stopped_iff rfl).mpr ⟨none, rfl⟩
  · exact ticks_of_filled (ticks.active fun both => effects both.2) fun both => none both.1
  · exact ticks.of_same rfl (by simp [idle])

theorem Ticks.killSpawn (wf : s.WellFormed) (ticks : s.Ticks) (w : SpellWorld) (id : UInt16)
    : (s.killSpawn w id).Ticks := by
  by_cases player : id = w.playerId
  · rw [SpellShell.killSpawn, if_pos player, clear]
    split_ifs with effects
    · rfl
    · have none : s.targetEffects = [] := not_not.mp effects
      simp [Ticks, stop, idle, none]
  · rw [killSpawn_other wf.noLast player]
    apply ticks_rest
    exact ticks.active_of_kept (fun none => by simp [none]) fun none => by simp [none]

theorem Ticks.delSpawn (ticks : s.Ticks) (despawned : Option UInt16)
    : (s.delSpawn despawned).Ticks := by
  cases despawned with
  | none => exact ticks
  | some id =>
      simp only [SpellShell.delSpawn]
      split_ifs with gone
      · exact (ticks_stopped_iff rfl).mpr gone.2
      · by_cases changed : (s.targetEffects.any fun i => i.targetId = id) = true
        · have active : s.timerActive = true := by
            apply ticks.active
            rintro ⟨_, none⟩
            rw [none] at changed
            cases changed
          exact ticks_of_filled active fun none => gone ⟨changed, none⟩
        · have same : (s.targetEffects.filter fun i => i.targetId ≠ id) = s.targetEffects := by
            apply List.filter_eq_self.mpr
            intro i member
            by_contra about
            exact changed (List.any_eq_true.mpr ⟨i, member, by simpa using about⟩)
          exact ticks.of_same rfl (by rw [idle, idle, same])

theorem Ticks.timeout (wf : s.WellFormed) (ticks : s.Ticks) (w : SpellWorld)
    : (s.timeout w).Ticks := by
  rw [timeout_eq wf.noLast]
  apply ticks_rest
  exact ticks.active_of_kept (fun none => by simp [none]) fun none => by simp [none]

/-- One operation leaves the timer right exactly where it spares it. -/
theorem ticks_run_iff (op : SpellOp) (wf : s.WellFormed) (ticks : s.Ticks)
    : (op.run s).Ticks ↔ s.Spares op := by
  cases op with
  | buffLoad w spellid ticks' =>
      apply iff_of_true _ trivial
      simp only [SpellOp.run, buffLoad]
      split
      · exact ticks.setSpell _ _
      · exact ticks_appendSpell _
  | buff w fromClient out =>
      cases fromClient with
      | true => exact iff_of_true ticks trivial
      | false =>
          cases out with
          | none => exact iff_of_true ticks trivial
          | some out => exact ticks_buff wf ticks w out
  | buffList w fromClient entries =>
      cases fromClient with
      | true => exact iff_of_true ticks trivial
      | false =>
          cases entries with
          | nil => exact iff_of_true ticks trivial
          | cons first rest =>
              simp only [SpellOp.run, buffList, Bool.false_eq_true, if_false, Spares]
              cases buffListMob w first.spawnId with
              | some mobName => exact ticks_mobBuffList wf ticks w _ mobName _
              | none => exact ticks_playerBuffList wf ticks w _
  | action w out => exact iff_of_true (ticks.action w out) trivial
  | simpleMessage messageFormat =>
      apply iff_of_true _ trivial
      rw [SpellOp.run, wf.simpleMessage]
      exact ticks
  | spellMessage str =>
      apply iff_of_true _ trivial
      simp only [SpellOp.run, spellMessage]
      split
      · exact ticks
      split
      · exact ticks.setSpell _ _
      · exact ticks
  | zoneChanged => exact iff_of_true ticks.zoneChanged trivial
  | killSpawn w id => exact iff_of_true (ticks.killSpawn wf w id) trivial
  | delSpawn despawned => exact iff_of_true (ticks.delSpawn despawned) trivial
  | deleteSpell item => exact ticks_deleteSpell wf ticks item
  | timeout w => exact iff_of_true (ticks.timeout wf w) trivial
  | clear =>
      apply iff_of_true _ trivial
      simp only [SpellOp.run, clear]
      split_ifs with effects
      · rfl
      · simp [Ticks, stop, idle, not_not.mp effects]

-----------------------------------------------------------------------------------------
-- Runs
-----------------------------------------------------------------------------------------

/-- The timer runs exactly where a list has an item, throughout a run, if and only if every
operation of the run spares it.
-/
theorem always_ticks_iff (ops : List SpellOp)
    : Machine.Always SpellOp.run Ticks fresh ops ↔ Machine.Permits SpellOp.run Spares fresh ops :=
  Machine.always_iff_permits wellFormed_fresh ticks_fresh (fun _ op wf => wf.run op)
    fun _ op => ticks_run_iff op

/-- In a run whose operations spare the timer, it runs wherever an item can count down, and rests
wherever there is none.
-/
theorem timerRight_of_spares {ops : List SpellOp}
    (spares : Machine.Permits SpellOp.run Spares fresh ops)
    : Machine.Always SpellOp.run TimerRight fresh ops :=
  ((always_ticks_iff ops).mpr spares).mono fun _ ticks => ticks.timerRight

/-- A world where one spell lasts for ten ticks. -/
def castWorld : SpellWorld :=
  { plainWorld 5 with
    spell := fun id =>
      if id = 20 then some ⟨"Drifting Death", false, false, 1, 5, fun _ => 10⟩ else none }

/-- A spell cast on a mob, a buff, and the buff's fading once the mob is gone. -/
theorem timerRight_fade
    : Machine.Always SpellOp.run TimerRight fresh
        [.action castWorld (some ⟨9, 5, 20, 50, 0xe7⟩), .buffLoad castWorld 13 40,
          .delSpawn (some 9), .buff castWorld false (some ⟨0, 5, 13, 0, 0⟩)] := by
  apply timerRight_of_spares
  refine ⟨trivial, trivial, trivial, ?_, trivial⟩
  intro i _ strands
  exact strands.1 (by decide)

/-- The same while the mob is there: its effect stays, and the timer stops. -/
theorem not_timerRight_fade
    : ¬ ∀ ops, Machine.Always SpellOp.run TimerRight fresh ops := by
  intro always
  obtain ⟨_, _, _, right⟩ := always
    [.action castWorld (some ⟨9, 5, 20, 50, 0xe7⟩), .buffLoad castWorld 13 40,
      .buff castWorld false (some ⟨0, 5, 13, 0, 0⟩)]
  exact absurd (right.runs (by decide +kernel)) (by decide +kernel)

end SpellShell

end Scry
