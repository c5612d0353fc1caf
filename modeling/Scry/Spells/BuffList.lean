import Mathlib.Data.List.Basic
import Scry.Spells.Addresses

/-! The player's list against the record that is meant to decide it. What a list of entries makes
of the items is followed one spell at a time: an entry changes only the items of its own spell.
-/

namespace Scry

open BuffEntry (IsSpell)

variable {s : SpellShell} {w : SpellWorld} {e : BuffEntry} {entries : List BuffEntry}
  {items : List SpellItem} {v : UInt32}

-----------------------------------------------------------------------------------------
-- What the list should be
-----------------------------------------------------------------------------------------

/-- The items of one spell. -/
def ofSpell (v : UInt32) (items : List SpellItem) : List SpellItem :=
  items.filter fun i => i.spellId = v

/-- No later entry is about the same spell. -/
def IsLastEntry (entries : List BuffEntry) (e : BuffEntry) : Prop :=
  ∃ before after, entries = before ++ e :: after ∧ ∀ other ∈ after, other.spellId ≠ e.spellId

/-- An item of the player's that says what an entry says. -/
structure Shows (w : SpellWorld) (e : BuffEntry) (i : SpellItem) : Prop where
  spellId : i.spellId = e.spellId
  buffSlot : i.buffSlot = e.slot
  isPermanent : i.isPermanent = decide (e.remainingTicks ≤ 0)
  duration : i.duration = if e.remainingTicks ≤ 0 then -1 else e.remainingTicks * 6
  owner : i.targetId = w.playerId

/-- The items are those that the entries list: one for each spell, as its last entry has it. -/
structure Authoritative (w : SpellWorld) (entries : List BuffEntry) (items : List SpellItem)
    : Prop where
  listed
    : ∀ e, IsLastEntry entries e
        → IsSpell e.spellId
        → ∃ i, ofSpell e.spellId items = [i] ∧ Shows w e i
  only : ∀ i ∈ items, IsSpell i.spellId ∧ ∃ e ∈ entries, e.spellId = i.spellId

-----------------------------------------------------------------------------------------
-- Items of one spell
-----------------------------------------------------------------------------------------

/-- An item that `findSpell` takes for one of the player's. -/
def isOwn (w : SpellWorld) (i : SpellItem) : Bool :=
  i.targetId = w.playerId || (i.targetId = 0 && i.targetName = w.playerName)

theorem findSpell_player
    : s.findSpell v w.playerId w.playerName = (ofSpell v s.spellList).find? (isOwn w) := by
  rw [ofSpell, List.find?_filter, SpellShell.findSpell]
  congr 1
  funext i
  simp [SpellShell.matchesOwner, isOwn]

theorem ofSpell_modifyAt {f : SpellItem → SpellItem} (keeps : ∀ i, (f i).spellId = i.spellId)
    (address : Nat)
    : ofSpell v (modifyAt address f items) = modifyAt address f (ofSpell v items) := by
  have same : (fun i : SpellItem => decide (i.spellId = v))
      ∘ (fun i => if i.address = address then f i else i)
      = fun i => decide (i.spellId = v) := by
    funext i
    simp only [Function.comp_apply]
    split_ifs
    · rw [keeps i]
    · rfl
  rw [ofSpell, modifyAt, List.filter_map, same]
  rfl

/-- An item that is not there does not change. -/
theorem modifyAt_absent {f : SpellItem → SpellItem} {address : Nat}
    (absent : ∀ i ∈ items, i.address ≠ address)
    : modifyAt address f items = items := by
  rw [modifyAt, List.map_congr_left (g := id), List.map_id]
  intro i member
  exact if_neg (absent i member)

theorem mem_ofSpell {i : SpellItem} : i ∈ ofSpell v items ↔ i ∈ items ∧ i.spellId = v := by
  rw [ofSpell, List.mem_filter, decide_eq_true_eq]

/-- The target id of what an entry adds: that of the player, unless the spell is on oneself
only.
-/
def newOwner (w : SpellWorld) (v : UInt32) : UInt16 :=
  (w.spell v).elim w.playerId fun spell => if spell.targetType ≠ 0x06 then w.playerId else 0

theorem fill_targetId (e : BuffEntry) (address : Nat)
    : (e.fill w w.playerId w.playerName { address }).targetId = newOwner w e.spellId := by
  cases found : w.spell e.spellId with
  | none =>
      simp [BuffEntry.fill, BuffEntry.refresh, SpellItem.update, SpellItem.setSpell, newOwner,
        found]
  | some spell =>
      simp [BuffEntry.fill, BuffEntry.refresh, SpellItem.update, SpellItem.setSpell, newOwner,
        found]

theorem fill_spellId (e : BuffEntry) (targetId : UInt16) (targetName : String) (i : SpellItem)
    : (e.fill w targetId targetName i).spellId = e.spellId := by
  cases found : w.spell e.spellId with
  | none => simp [BuffEntry.fill, BuffEntry.refresh, SpellItem.update, SpellItem.setSpell, found]
  | some spell =>
      simp [BuffEntry.fill, BuffEntry.refresh, SpellItem.update, SpellItem.setSpell, found]

theorem BuffEntry.refresh_spellId (e : BuffEntry) (i : SpellItem)
    : (e.refresh i).spellId = i.spellId := rfl

/-- A refreshed item of the player's says what the entry says. -/
theorem shows_refresh {i : SpellItem} (spell : i.spellId = e.spellId)
    (owner : i.targetId = w.playerId)
    : Shows w e (e.refresh i) where
  spellId := spell
  buffSlot := rfl
  isPermanent := rfl
  duration := by
    simp only [BuffEntry.refresh, BuffEntry.duration, BuffEntry.permanent,
      SpellItem.permanentDuration, decide_eq_true_eq]
  owner := owner

-----------------------------------------------------------------------------------------
-- One entry
-----------------------------------------------------------------------------------------

namespace SpellShell

variable {r : SpellShell × Bool}

/-- What an entry does to the items of its own spell. -/
theorem playerEntry_same (spell : IsSpell e.spellId)
    : ofSpell e.spellId (playerEntry w r e).1.spellList
      = match (ofSpell e.spellId r.1.spellList).find? (isOwn w) with
        | some i => modifyAt i.address e.refresh (ofSpell e.spellId r.1.spellList)
        | none =>
            ofSpell e.spellId r.1.spellList
              ++ [e.fill w w.playerId w.playerName { address := r.1.nextAddress }] := by
  rw [playerEntry, if_neg (not_not_intro spell), findSpell_player]
  cases (ofSpell e.spellId r.1.spellList).find? (isOwn w) with
  | some i => exact ofSpell_modifyAt e.refresh_spellId _
  | none =>
      simp only [appendSpell, ofSpell, List.filter_append]
      rw [List.filter_cons_of_pos (by simp [fill_spellId])]
      rfl

/-- An entry leaves the items of another spell alone. -/
theorem playerEntry_other (wf : r.1.WellFormed) (other : e.spellId ≠ v)
    : ofSpell v (playerEntry w r e).1.spellList = ofSpell v r.1.spellList := by
  rw [playerEntry]
  by_cases spell : IsSpell e.spellId
  · rw [if_neg (not_not_intro spell)]
    cases found : r.1.findSpell e.spellId w.playerId w.playerName with
    | some i =>
        rw [findSpell_player] at found
        obtain ⟨member, same⟩ := mem_ofSpell.mp (List.mem_of_find?_eq_some found)
        refine (ofSpell_modifyAt e.refresh_spellId _).trans (modifyAt_absent ?_)
        intro j listed address
        obtain ⟨there, spellOfJ⟩ := mem_ofSpell.mp listed
        have one : j = i := List.inj_on_of_nodup_map wf.spells there member address
        exact other (same.symm.trans (one ▸ spellOfJ))
    | none =>
        simp only [appendSpell, ofSpell, List.filter_append]
        rw [List.filter_cons_of_neg (by simpa [fill_spellId] using other), List.filter_nil,
          List.append_nil]
  · rw [if_pos spell]

/-- The items of a spell that the entries can keep right: none, where a new one would be the
player's, or one of the player's.
-/
def Ready (w : SpellWorld) (v : UInt32) (own : List SpellItem) : Prop :=
  (own = [] ∧ newOwner w v = w.playerId) ∨ ∃ i, own = [i] ∧ i.targetId = w.playerId

/-- An entry makes one right item of its spell. -/
theorem playerEntry_shows (spell : IsSpell e.spellId)
    (ready : Ready w e.spellId (ofSpell e.spellId r.1.spellList))
    : ∃ i, ofSpell e.spellId (playerEntry w r e).1.spellList = [i] ∧ Shows w e i := by
  rw [playerEntry_same spell]
  rcases ready with ⟨none, owner⟩ | ⟨i, one, owner⟩
  · rw [none]
    refine ⟨_, rfl, ?_⟩
    have new := (fill_targetId (w := w) e r.1.nextAddress).trans owner
    exact shows_refresh (fill_spellId e w.playerId w.playerName _) new
  · have spellOfI : i.spellId = e.spellId :=
      (mem_ofSpell.mp (one ▸ List.mem_singleton_self i)).2
    have own : isOwn w i = true := by simp [isOwn, owner]
    rw [one, List.find?_cons_of_pos own]
    exact ⟨e.refresh i, by simp [modifyAt], shows_refresh spellOfI owner⟩

/-- Any entry leaves the items of a spell such that they can be kept right. -/
theorem playerEntry_ready (wf : r.1.WellFormed) (ready : Ready w v (ofSpell v r.1.spellList))
    : Ready w v (ofSpell v (playerEntry w r e).1.spellList) := by
  by_cases same : e.spellId = v
  · subst same
    by_cases spell : IsSpell e.spellId
    · obtain ⟨i, one, shows⟩ := playerEntry_shows spell ready
      exact .inr ⟨i, one, shows.owner⟩
    · rw [playerEntry, if_pos spell]
      exact ready
  · rw [playerEntry_other wf same]
    exact ready

/-- An entry keeps the target ids of the items, and adds at most one. -/
theorem playerEntry_extends (wf : r.1.WellFormed)
    : (ofSpell v r.1.spellList).map SpellItem.targetId
      <+: (ofSpell v (playerEntry w r e).1.spellList).map SpellItem.targetId := by
  by_cases same : e.spellId = v
  · subst same
    by_cases spell : IsSpell e.spellId
    · rw [playerEntry_same spell]
      cases (ofSpell e.spellId r.1.spellList).find? (isOwn w) with
      | some i =>
          have kept
              : (modifyAt i.address e.refresh (ofSpell e.spellId r.1.spellList)).map
                  SpellItem.targetId
                = (ofSpell e.spellId r.1.spellList).map SpellItem.targetId := by
            rw [modifyAt, List.map_map]
            apply List.map_congr_left
            intro j _
            simp only [Function.comp_apply]
            split_ifs <;> rfl
          dsimp only
          exact kept ▸ List.prefix_rfl
      | none =>
          dsimp only
          rw [List.map_append]
          exact List.prefix_append _ _
    · have unchanged : playerEntry w r e = r := if_pos spell
      exact unchanged.symm ▸ List.prefix_rfl
  · have kept := playerEntry_other (w := w) wf same
    exact kept.symm ▸ List.prefix_rfl

-----------------------------------------------------------------------------------------
-- All entries
-----------------------------------------------------------------------------------------

/-- Entries of other spells leave the items of a spell alone, by induction on them. -/
theorem playerEntries_other (wf : r.1.WellFormed) (others : ∀ e ∈ entries, e.spellId ≠ v)
    : ofSpell v (entries.foldl (playerEntry w) r).1.spellList = ofSpell v r.1.spellList := by
  induction entries generalizing r with
  | nil => rfl
  | cons e rest ih =>
      rw [List.foldl_cons, ih (wf.playerEntry w e)
        fun other member => others other (List.mem_cons_of_mem e member)]
      exact playerEntry_other wf (others e List.mem_cons_self)

theorem playerEntries_ready (wf : r.1.WellFormed) (ready : Ready w v (ofSpell v r.1.spellList))
    : Ready w v (ofSpell v (entries.foldl (playerEntry w) r).1.spellList) := by
  induction entries generalizing r with
  | nil => exact ready
  | cons e rest ih => exact ih (wf.playerEntry w e) (playerEntry_ready wf ready)

theorem playerEntries_prefix (wf : r.1.WellFormed)
    : (ofSpell v r.1.spellList).map SpellItem.targetId
      <+: (ofSpell v (entries.foldl (playerEntry w) r).1.spellList).map SpellItem.targetId := by
  induction entries generalizing r with
  | nil => exact List.prefix_rfl
  | cons e rest ih => exact (playerEntry_extends wf).trans (ih (wf.playerEntry w e))

/-- The last entry of a spell decides its item. -/
theorem playerEntries_shows (wf : r.1.WellFormed) (last : IsLastEntry entries e)
    (spell : IsSpell e.spellId) (ready : Ready w e.spellId (ofSpell e.spellId r.1.spellList))
    : ∃ i, ofSpell e.spellId (entries.foldl (playerEntry w) r).1.spellList = [i]
        ∧ Shows w e i := by
  obtain ⟨before, after, rfl, others⟩ := last
  rw [List.foldl_append, List.foldl_cons]
  have earlier := wf.entries (fun r e wf => wf.playerEntry w e) before
  rw [playerEntries_other (earlier.playerEntry w e) others]
  exact playerEntry_shows spell (playerEntries_ready wf ready)

/-- Where the entries end with one item of the player's, they started with items that could be
kept right; by induction on them, as the first entry of the spell finds what there was.
-/
theorem ready_of_playerEntries (wf : r.1.WellFormed) (spell : IsSpell v)
    (listed : ∃ e ∈ entries, e.spellId = v)
    (one : (ofSpell v (entries.foldl (playerEntry w) r).1.spellList).map SpellItem.targetId
      = [w.playerId])
    : Ready w v (ofSpell v r.1.spellList) := by
  induction entries generalizing r with
  | nil =>
      obtain ⟨_, member, _⟩ := listed
      cases member
  | cons e rest ih =>
      rw [List.foldl_cons] at one
      by_cases same : e.spellId = v
      · subst same
        have after : (ofSpell e.spellId (playerEntry w r e).1.spellList).map SpellItem.targetId
            <+: [w.playerId] :=
          one ▸ playerEntries_prefix (wf.playerEntry w e)
        have before := (playerEntry_extends (w := w) (v := e.spellId) (e := e) wf).trans after
        rcases List.prefix_cons_iff.mp before with none | ⟨others, some, noOthers⟩
        · left
          have empty := List.map_eq_nil_iff.mp none
          refine ⟨empty, ?_⟩
          rw [playerEntry_same spell, empty] at after
          simpa [fill_targetId] using after
        · rw [List.prefix_nil.mp noOthers] at some
          obtain ⟨i, owned, owner⟩ := List.map_eq_singleton_iff.mp some
          exact .inr ⟨i, owned, owner⟩
      · have later : ∃ e ∈ rest, e.spellId = v := by
          obtain ⟨other, member, about⟩ := listed
          rcases List.mem_cons.mp member with rfl | there
          · exact absurd about same
          · exact ⟨other, there, about⟩
        have ready := ih (wf.playerEntry w e) later one
        rwa [playerEntry_other wf same] at ready

/-- A marker's entries change nothing. -/
theorem playerEntries_marker (wf : r.1.WellFormed) (w : SpellWorld) (entries : List BuffEntry)
    (marker : ¬ IsSpell v)
    : ofSpell v (entries.foldl (playerEntry w) r).1.spellList = ofSpell v r.1.spellList := by
  induction entries generalizing r with
  | nil => rfl
  | cons e rest ih =>
      rw [List.foldl_cons, ih (wf.playerEntry w e)]
      by_cases same : e.spellId = v
      · rw [playerEntry, if_pos (same ▸ marker)]
      · exact playerEntry_other wf same

-----------------------------------------------------------------------------------------
-- The whole record
-----------------------------------------------------------------------------------------

/-- Deleting items one by one takes them out, and stops the timer once none is left. -/
theorem deleteSpells_eq (noLast : s.lastPlayerSpell = none) (gone : List SpellItem)
    : s.deleteSpells gone
      = { s with
          spellList := gone.foldl
            (fun l i => l.eraseP fun y => decide (y.address = i.address)) s.spellList
          timerActive := s.timerActive && (gone.isEmpty
            || !(gone.foldl (fun l i => l.eraseP fun y => decide (y.address = i.address))
              s.spellList).isEmpty) } := by
  induction gone generalizing s with
  | nil => simp [deleteSpells]
  | cons i rest ih =>
      rw [deleteSpells, List.foldl_cons, deleteSpell_some noLast]
      refine (ih (s := { s with
        spellList := s.spellList.eraseP fun y => decide (y.address = i.address)
        timerActive := s.timerActive
          && !(s.spellList.eraseP fun y => decide (y.address = i.address)).isEmpty })
        noLast).trans ?_
      cases rest with
      | nil => simp
      | cons j more =>
          have later := foldl_eraseP_sublist (j :: more)
            (s.spellList.eraseP fun y => decide (y.address = i.address))
          cases none : (s.spellList.eraseP fun y => decide (y.address = i.address)).isEmpty with
          | false => simp
          | true =>
              rw [List.isEmpty_iff.mp none] at later
              simp [List.isEmpty_iff.mp none, List.sublist_nil.mp later]

/-- Deleting what a test collected leaves what it refuses. -/
theorem deleteSpells_filter (wf : s.WellFormed) (p : SpellItem → Bool)
    : s.deleteSpells (s.spellList.filter p)
      = { s with
          spellList := s.spellList.filter fun i => !p i
          timerActive := s.timerActive
            && ((s.spellList.filter p).isEmpty || !(s.spellList.filter fun i => !p i).isEmpty) } := by
  rw [deleteSpells_eq wf.noLast, Keyed.foldl_eraseP_filter wf.spells p]

/-- The items that are kept before the entries are looked at. -/
def kept (w : SpellWorld) (items : List SpellItem) : List SpellItem :=
  items.filter fun i => !(w.playerName ≠ "" && isOrphan w i)

/-- Every spell that is listed finds at most one kept item, which is the player's, or a new one
that will be; and nothing is kept under a marker that is listed.
-/
def Keepable (w : SpellWorld) (items : List SpellItem) (entries : List BuffEntry) : Prop :=
  ∀ e ∈ entries,
    if IsSpell e.spellId then Ready w e.spellId (ofSpell e.spellId (kept w items))
    else ofSpell e.spellId (kept w items) = []

theorem not_isStale {i : SpellItem}
    : isStale entries i = false ↔ ∃ e ∈ entries, e.spellId = i.spellId := by
  simp [isStale]

/-- What is listed is not stale. -/
theorem ofSpell_fresh (member : e ∈ entries)
    : ofSpell e.spellId (items.filter fun i => !isStale entries i) = ofSpell e.spellId items := by
  rw [ofSpell, List.filter_filter]
  apply List.filter_congr
  intro i _
  by_cases same : i.spellId = e.spellId
  · have fresh : isStale entries i = false := not_isStale.mpr ⟨e, member, same.symm⟩
    simp [same, fresh]
  · simp [same]

/-- A spell that is listed has a last entry. -/
theorem exists_isLastEntry (listed : ∃ e ∈ entries, e.spellId = v)
    : ∃ last, IsLastEntry entries last ∧ last.spellId = v := by
  induction entries with
  | nil =>
      obtain ⟨_, member, _⟩ := listed
      cases member
  | cons e rest ih =>
      by_cases later : ∃ other ∈ rest, other.spellId = v
      · obtain ⟨last, ⟨before, after, split, others⟩, about⟩ := ih later
        exact ⟨last, ⟨e :: before, after, by rw [split, List.cons_append], others⟩, about⟩
      · push Not at later
        obtain ⟨found, member, about⟩ := listed
        rcases List.mem_cons.mp member with rfl | there
        · exact ⟨found, ⟨[], rest, rfl, fun other there => about ▸ later other there⟩, about⟩
        · exact absurd about (later found there)

/-- What the first deletions keep. -/
theorem dropOrphans_spellList (wf : s.WellFormed) (w : SpellWorld)
    : (s.dropOrphans w).spellList = kept w s.spellList := by
  rw [dropOrphans]
  split_ifs with named
  · rw [deleteSpells_filter wf]
    simp [kept, named]
  · simp [kept, named]

/-- What the list becomes: the kept items, merged with the entries, without the stale ones. -/
theorem playerBuffList_spellList (wf : s.WellFormed) (w : SpellWorld)
    (entries : List BuffEntry)
    : (s.playerBuffList w entries).spellList
      = (entries.foldl (playerEntry w) (s.dropOrphans w, false)).1.spellList.filter
          fun i => !isStale entries i := by
  have merged := (wf.dropOrphans w).playerEntries w entries
  have started : ∀ u : SpellShell, u.start.spellList = u.spellList := fun u => by
    rw [start]
    split_ifs <;> rfl
  rw [playerBuffList]
  split_ifs
  · rw [started, deleteSpells_filter merged]
  · rw [deleteSpells_filter merged]

/-- Where the record finds the items keepable, it settles them. -/
theorem authoritative_of_keepable (wf : s.WellFormed)
    (keepable : Keepable w s.spellList entries)
    : Authoritative w entries (s.playerBuffList w entries).spellList := by
  have owned := wf.dropOrphans w
  have start := dropOrphans_spellList wf w
  rw [playerBuffList_spellList wf]
  constructor
  · intro e last spell
    have member : e ∈ entries := by
      obtain ⟨before, after, rfl, _⟩ := last
      exact List.mem_append_right _ List.mem_cons_self
    have ready := keepable e member
    rw [if_pos spell, ← start] at ready
    rw [ofSpell_fresh member]
    exact playerEntries_shows (r := (s.dropOrphans w, false)) owned last spell ready
  · intro i member
    obtain ⟨there, fresh⟩ := List.mem_filter.mp member
    obtain ⟨e, listed, about⟩ := not_isStale.mp (by simpa using fresh)
    refine ⟨?_, e, listed, about⟩
    by_contra marker
    have none := keepable e listed
    rw [if_neg (about ▸ marker), ← start, about] at none
    have unchanged := playerEntries_marker (r := (s.dropOrphans w, false)) owned w entries marker
    have inside := mem_ofSpell.mpr ⟨there, rfl⟩
    rw [unchanged, none] at inside
    cases inside

/-- Where the items are settled, the record found them keepable. -/
theorem keepable_of_authoritative (wf : s.WellFormed)
    (settled : Authoritative w entries (s.playerBuffList w entries).spellList)
    : Keepable w s.spellList entries := by
  have owned := wf.dropOrphans w
  have start := dropOrphans_spellList wf w
  rw [playerBuffList_spellList wf] at settled
  intro e member
  rw [← start]
  split_ifs with spell
  · obtain ⟨last, isLast, about⟩ := exists_isLastEntry ⟨e, member, rfl⟩
    obtain ⟨i, one, shows⟩ := settled.listed last isLast (about ▸ spell)
    rw [about, ofSpell_fresh member] at one
    apply ready_of_playerEntries (r := (s.dropOrphans w, false)) owned spell ⟨e, member, rfl⟩
    rw [one, List.map_singleton, shows.owner]
  · rw [← playerEntries_marker (r := (s.dropOrphans w, false)) owned w entries spell]
    apply List.eq_nil_iff_forall_not_mem.mpr
    intro i inside
    obtain ⟨there, about⟩ := mem_ofSpell.mp inside
    have fresh : isStale entries i = false := not_isStale.mpr ⟨e, member, about.symm⟩
    have stays := (List.mem_filter (p := fun i => !isStale entries i)).mpr
      ⟨there, by simpa using fresh⟩
    exact spell (about ▸ (settled.only i stays).1)

/-- In every state that operations lead to, a list of the player's settles the items exactly
where it finds them keepable.
-/
theorem authoritative_iff_keepable
    (reached : Machine.Reaches SpellOp.run (fun _ _ => True) fresh s) (w : SpellWorld)
    {entries : List BuffEntry} {first : BuffEntry} (some : entries.head? = some first)
    (player : buffListMob w first.spawnId = none)
    : Authoritative w entries (s.buffList w false entries).spellList
      ↔ Keepable w s.spellList entries := by
  have wf : s.WellFormed := reached.invariant wellFormed_fresh fun _ op _ wf => wf.run op
  obtain ⟨rest, rfl⟩ := List.head?_eq_some_iff.mp some
  have applied : s.buffList w false (first :: rest) = s.playerBuffList w (first :: rest) := by
    simp only [buffList, Bool.false_eq_true, if_false, player]
  rw [applied]
  exact ⟨keepable_of_authoritative wf, authoritative_of_keepable wf⟩

-----------------------------------------------------------------------------------------
-- Runs in which it does, and does not
-----------------------------------------------------------------------------------------

/-- A player with no spell table, no spawns around and a sweep every six seconds. -/
def plainWorld (playerId : UInt16) : SpellWorld where
  playerId
  playerName := "Aradune"
  playerLevel := 50
  findID _ := none
  spell _ := none
  spellName _ := "Unknown"
  spellTimer := 6

/-- A buff of the profile is settled in the same zone. -/
theorem authoritative_loaded
    : Authoritative (plainWorld 5) [⟨5, 13, 2, 30, "Aradune"⟩]
        ((SpellOp.buffLoad (plainWorld 5) 13 40).run fresh |>.buffList (plainWorld 5) false
          [⟨5, 13, 2, 30, "Aradune"⟩]).spellList := by
  have reached : Machine.Reaches SpellOp.run (fun _ _ => True) fresh
      ((SpellOp.buffLoad (plainWorld 5) 13 40).run fresh) :=
    .step .start _ trivial
  apply (authoritative_iff_keepable reached (plainWorld 5) rfl rfl).mpr
  intro e member
  obtain rfl := List.mem_singleton.mp member
  exact .inr ⟨_, rfl, rfl⟩

/-- A buff that an update told, kept over a zone change, is there twice when the list names it:
the update left no name by which the item could be recognised.
-/
theorem not_authoritative_zoned
    : ¬ ∀ s, Machine.Reaches SpellOp.run (fun _ _ => True) fresh s
        → ∀ (w : SpellWorld) (entries : List BuffEntry) (first : BuffEntry),
          entries.head? = some first
            → buffListMob w first.spawnId = none
            → Authoritative w entries (s.buffList w false entries).spellList := by
  intro always
  let told : SpellOp := .buff (plainWorld 5) false (some ⟨2, 5, 13, 0, 40⟩)
  have reached : Machine.Reaches SpellOp.run (fun _ _ => True) fresh
      (SpellOp.zoneChanged.run (told.run fresh)) :=
    .step (.step .start told trivial) .zoneChanged trivial
  have settled := always _ reached (plainWorld 7) [⟨7, 13, 2, 30, "Aradune"⟩] _ rfl rfl
  obtain ⟨i, one, _⟩ := settled.listed ⟨7, 13, 2, 30, "Aradune"⟩ ⟨[], [], rfl, nofun⟩ (by decide)
  have once := (congrArg List.length one).trans (List.length_singleton (a := i))
  exact absurd once (by decide +kernel)

end SpellShell

end Scry
