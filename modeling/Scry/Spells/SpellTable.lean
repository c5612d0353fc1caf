import Scry.Spells.Durations

/-! The spell table: an array with a place for every id up to the highest one, which is built
from a file's lines once the highest id is known. The highest id outlives the file that had it.
-/

namespace Scry

open Maps (splitLines)

/-- `Spells`. -/
structure Spells where
  maxSpell : UInt32
  spells : Option (List (Option SpellEntry))
  deriving DecidableEq

namespace Spells

/-- Before the first file. -/
def fresh : Spells := ⟨0, none⟩

/-- `unloadSpells`, whose loop looks at every place up to the highest id; none where one of these
is outside the array.
-/
def unloadSpells (s : Spells) : Option Spells :=
  match s.spells with
  | none => some s
  | some table => if s.maxSpell.toNat < table.length then some { s with spells := none } else none

/-- The first loop: the highest id so far and that of a line. -/
def raise (maxSpell : UInt32) (t : SpellEntry) : UInt32 :=
  if t.spell > maxSpell then t.spell else maxSpell

/-- The second loop: an entry replaces the one that is in its place; none where that is outside
the array.
-/
def insert (table : List (Option SpellEntry)) (t : SpellEntry) : Option (List (Option SpellEntry)) :=
  if t.spell.toNat < table.length then some (table.set t.spell.toNat (some t)) else none

/-- `loadSpells` with the text of a file, or with one that cannot be opened; none where the code
reads or writes outside a list.
-/
def loadSpells (s : Spells) (file : Option (List Char)) : Option Spells :=
  s.unloadSpells.bind fun s =>
    match file with
    | none => some s
    | some text =>
        ((splitLines text).mapM SpellEntry.ofLine).bind fun spellQueue =>
          let maxSpell := spellQueue.foldl raise s.maxSpell
          (spellQueue.foldlM insert (List.replicate (maxSpell + 1).toNat none)).map fun table =>
            ⟨maxSpell, some table⟩

/-- `spell`; none where the code reads outside the array. -/
def spell (s : Spells) (id : UInt32) : Option (Option SpellEntry) :=
  if id ≥ s.maxSpell then some none else s.spells.bind fun table => table[id.toNat]?

/-- One file after another. -/
def loadAll (texts : List (List Char)) : Option Spells :=
  texts.foldlM (fun s text => s.loadSpells (some text)) fresh

-----------------------------------------------------------------------------------------
-- What a file has
-----------------------------------------------------------------------------------------

/-- A text whose lines all have the fields that are read. -/
def WellFormedText (text : List Char) : Prop :=
  ∀ line ∈ splitLines text, (SpellEntry.ofLine line).isSome = true

instance (text : List Char) : Decidable (WellFormedText text) :=
  inferInstanceAs (Decidable (∀ line ∈ splitLines text, (SpellEntry.ofLine line).isSome = true))

/-- The spells of a text. -/
def entries (text : List Char) : List SpellEntry := (splitLines text).filterMap SpellEntry.ofLine

/-- The spell of the last line with an id. -/
def lastOf (id : UInt32) (queue : List SpellEntry) : Option SpellEntry :=
  (queue.filter fun t => t.spell = id).getLast?

/-- The highest id of all. -/
def highest (texts : List (List Char)) : UInt32 := (texts.flatMap entries).foldl raise 0

variable {queue : List SpellEntry} {table : List (Option SpellEntry)} {s : Spells}
  {text : List Char}

/-- A text of such lines is read whole, by induction on the lines. -/
theorem mapM_ofLine {lines : List (List Char)}
    (wellFormed : ∀ line ∈ lines, (SpellEntry.ofLine line).isSome = true)
    : lines.mapM SpellEntry.ofLine = some (lines.filterMap SpellEntry.ofLine) := by
  induction lines with
  | nil => rfl
  | cons line rest ih =>
      obtain ⟨t, read⟩ := Option.isSome_iff_exists.mp (wellFormed line List.mem_cons_self)
      have later := ih fun other member => wellFormed other (List.mem_cons_of_mem _ member)
      rw [List.mapM_cons, read, later, List.filterMap_cons_some read]
      rfl

theorem lastOf_append (id : UInt32) (queue : List SpellEntry) (t : SpellEntry)
    : lastOf id (queue ++ [t]) = if t.spell = id then some t else lastOf id queue := by
  rw [lastOf, List.filter_append]
  by_cases same : t.spell = id
  · rw [if_pos same, List.filter_cons_of_pos (by simpa using same)]
    simp
  · rw [if_neg same, List.filter_cons_of_neg (by simpa using same)]
    simp [lastOf]

theorem lastOf_eq_none (id : UInt32) (queue : List SpellEntry)
    : lastOf id queue = none ↔ ∀ t ∈ queue, t.spell ≠ id := by
  rw [lastOf, List.getLast?_eq_none_iff, List.filter_eq_nil_iff]
  simp only [decide_eq_true_eq, ne_eq]

-----------------------------------------------------------------------------------------
-- The highest id
-----------------------------------------------------------------------------------------

theorem le_raise (m : UInt32) (t : SpellEntry) : m ≤ raise m t ∧ t.spell ≤ raise m t := by
  rw [raise]
  split_ifs with higher
  · exact ⟨UInt32.le_of_lt higher, UInt32.le_refl _⟩
  · exact ⟨UInt32.le_refl _, UInt32.not_lt.mp higher⟩

/-- Nothing is above the highest id, by induction on the lines. -/
theorem le_foldl_raise (m : UInt32) (queue : List SpellEntry)
    : m ≤ queue.foldl raise m ∧ ∀ t ∈ queue, t.spell ≤ queue.foldl raise m := by
  induction queue generalizing m with
  | nil => exact ⟨UInt32.le_refl _, nofun⟩
  | cons first rest ih =>
      obtain ⟨above, later⟩ := ih (raise m first)
      have both := le_raise m first
      refine ⟨UInt32.le_trans both.1 above, fun t member => ?_⟩
      rcases List.mem_cons.mp member with rfl | member
      · exact UInt32.le_trans both.2 above
      · exact later t member

/-- The highest id is one of a line, or the one before. -/
theorem foldl_raise_mem (m : UInt32) (queue : List SpellEntry)
    : queue.foldl raise m = m ∨ ∃ t ∈ queue, t.spell = queue.foldl raise m := by
  induction queue generalizing m with
  | nil => exact Or.inl rfl
  | cons first rest ih =>
      rw [List.foldl_cons]
      rcases ih (raise m first) with same | ⟨t, member, same⟩
      · rw [same, raise]
        split_ifs
        · exact Or.inr ⟨first, List.mem_cons_self, rfl⟩
        · exact Or.inl rfl
      · exact Or.inr ⟨t, List.mem_cons_of_mem _ member, same⟩

-----------------------------------------------------------------------------------------
-- One file
-----------------------------------------------------------------------------------------

/-- An array whose places hold the last entry of their ids. -/
structure Holds (table : List (Option SpellEntry)) (maxSpell : UInt32) (queue : List SpellEntry)
    : Prop where
  length : table.length = maxSpell.toNat + 1
  places : ∀ id : UInt32, id ≤ maxSpell → table[id.toNat]? = some (lastOf id queue)

/-- The second loop fills an array that has a place for every entry. By induction on the entries
from the last one back, since that is the one that is found.
-/
theorem holds_insert (queue : List SpellEntry) {maxSpell : UInt32}
    (inside : ∀ t ∈ queue, t.spell ≤ maxSpell)
    : ∃ table, queue.foldlM insert (List.replicate (maxSpell.toNat + 1) none) = some table
      ∧ Holds table maxSpell queue := by
  induction queue using List.reverseRecOn with
  | nil =>
      refine ⟨_, rfl, List.length_replicate, fun id le => ?_⟩
      rw [List.getElem?_replicate, if_pos (Nat.lt_succ_of_le (UInt32.le_iff_toNat_le.mp le))]
      rfl
  | append_singleton earlier t ih =>
      obtain ⟨table, filled, holds⟩ := ih fun other member =>
        inside other (List.mem_append_left _ member)
      have below : t.spell.toNat < table.length := by
        rw [holds.length]
        exact Nat.lt_succ_of_le (UInt32.le_iff_toNat_le.mp (inside t (by simp)))
      refine ⟨table.set t.spell.toNat (some t), ?_, ?_, fun id le => ?_⟩
      · rw [List.foldlM_append, filled, Option.bind_eq_bind, Option.bind_some, List.foldlM_cons,
          insert, if_pos below]
        rfl
      · rw [List.length_set, holds.length]
      · rw [lastOf_append]
        by_cases same : t.spell = id
        · rw [if_pos same, ← same, List.getElem?_set_self below]
        · have apart : t.spell.toNat ≠ id.toNat := fun equal => same (UInt32.toNat_inj.mp equal)
          rw [if_neg same, List.getElem?_set_ne apart, holds.places id le]

/-- No line with the id whose successor is 0. -/
def Bounded (queue : List SpellEntry) : Prop := ∀ t ∈ queue, t.spell ≠ 0xffffffff

instance (queue : List SpellEntry) : Decidable (Bounded queue) :=
  inferInstanceAs (Decidable (∀ t ∈ queue, t.spell ≠ 0xffffffff))

/-- The table after some files. -/
structure Loaded (texts : List (List Char)) (s : Spells) : Prop where
  maxSpell : s.maxSpell = highest texts
  bounded : s.maxSpell ≠ 0xffffffff
  spells
    : match texts.getLast? with
      | none => s.spells = none
      | some last => ∃ table, s.spells = some table ∧ Holds table s.maxSpell (entries last)

theorem loaded_fresh : Loaded [] fresh := ⟨rfl, by decide, rfl⟩

/-- The old table is given back without an access outside it. -/
theorem Loaded.unloadSpells {texts : List (List Char)} (loaded : Loaded texts s)
    : s.unloadSpells = some { s with spells := none } := by
  rw [Spells.unloadSpells]
  have spells := loaded.spells
  cases latest : texts.getLast? with
  | none =>
      rw [latest] at spells
      obtain ⟨maxSpell, table⟩ := s
      obtain rfl : table = none := spells
      rfl
  | some last =>
      rw [latest] at spells
      obtain ⟨table, there, holds⟩ := spells
      rw [there]
      exact if_pos (by rw [holds.length]; exact Nat.lt_succ_self _)

theorem highest_append (texts : List (List Char)) (text : List Char)
    : highest (texts ++ [text]) = (entries text).foldl raise (highest texts) := by
  rw [highest, List.flatMap_append, List.foldl_append, List.flatMap_singleton]
  rfl

theorem toNat_succ_of_ne {m : UInt32} (bounded : m ≠ 0xffffffff)
    : (m + 1).toNat = m.toNat + 1 := by
  have upper := m.toNat_lt
  have other : m.toNat ≠ 4294967295 := fun same => bounded (UInt32.toNat_inj.mp same)
  rw [UInt32.toNat_add, UInt32.toNat_one]
  omega

/-- The highest id of all is that of a line of the last file, or was it before. -/
theorem bounded_highest {texts : List (List Char)} (bounded : highest texts ≠ 0xffffffff)
    (next : Bounded (entries text))
    : highest (texts ++ [text]) ≠ 0xffffffff := by
  rw [highest_append]
  rcases foldl_raise_mem (highest texts) (entries text) with same | ⟨t, member, same⟩
  · rw [same]
    exact bounded
  · rw [← same]
    exact next t member

/-- One more file. -/
theorem Loaded.load {texts : List (List Char)} (loaded : Loaded texts s)
    (wellFormed : WellFormedText text) (bounded : Bounded (entries text))
    : ∃ t, s.loadSpells (some text) = some t ∧ Loaded (texts ++ [text]) t := by
  have notHighest := bounded_highest (loaded.maxSpell ▸ loaded.bounded) bounded
  rw [highest_append] at notHighest
  obtain ⟨table, filled, holds⟩ := holds_insert (entries text)
    (le_foldl_raise (highest texts) (entries text)).2
  refine ⟨⟨(entries text).foldl raise (highest texts), some table⟩, ?_, ?_, notHighest, ?_⟩
  · rw [loadSpells, loaded.unloadSpells, Option.bind_some]
    dsimp only
    rw [mapM_ofLine wellFormed, Option.bind_some, loaded.maxSpell]
    change ((entries text).foldlM insert (List.replicate _ none)).map _ = _
    rw [← entries, toNat_succ_of_ne notHighest, filled]
    rfl
  · rw [highest_append]
  · rw [List.getLast?_concat]
    exact ⟨table, rfl, holds⟩

/-- An id without a successor leaves an array without places. -/
theorem Loaded.overflow {texts : List (List Char)} (loaded : Loaded texts s)
    (wellFormed : WellFormedText text) (unbounded : ¬ Bounded (entries text))
    : s.loadSpells (some text) = none := by
  rw [Bounded] at unbounded
  simp only [not_forall, not_not] at unbounded
  obtain ⟨t, member, isLast⟩ := unbounded
  have top : (entries text).foldl raise s.maxSpell = 0xffffffff := by
    have above := (le_foldl_raise s.maxSpell (entries text)).2 t member
    rw [isLast] at above
    have upper := ((entries text).foldl raise s.maxSpell).toNat_lt
    have toNat := UInt32.le_iff_toNat_le.mp above
    apply UInt32.toNat_inj.mp
    change _ = 4294967295
    change 4294967295 ≤ _ at toNat
    omega
  rw [loadSpells, loaded.unloadSpells, Option.bind_some]
  dsimp only
  rw [mapM_ofLine wellFormed, Option.bind_some]
  change ((entries text).foldlM insert
    (List.replicate ((entries text).foldl raise s.maxSpell + 1).toNat none)).map _ = none
  rw [top]
  cases listed : entries text with
  | nil => rw [listed] at member; exact absurd member List.not_mem_nil
  | cons first rest => rfl

-----------------------------------------------------------------------------------------
-- Files one after another
-----------------------------------------------------------------------------------------

theorem loadAll_append (texts : List (List Char)) (text : List Char)
    : loadAll (texts ++ [text]) = (loadAll texts).bind (·.loadSpells (some text)) := by
  rw [loadAll, loadAll, List.foldlM_append]
  cases texts.foldlM (fun s text => loadSpells s (some text)) fresh with
  | none => rfl
  | some s => rw [Option.bind_eq_bind, Option.bind_some, List.foldlM_cons]; simp

/-- What the files leave, by induction from the last one back. -/
theorem loadAll_eq {texts : List (List Char)} (wellFormed : ∀ text ∈ texts, WellFormedText text)
    : (∃ s, loadAll texts = some s ∧ Loaded texts s ∧ ∀ text ∈ texts, Bounded (entries text))
      ∨ (loadAll texts = none ∧ ∃ text ∈ texts, ¬ Bounded (entries text)) := by
  induction texts using List.reverseRecOn with
  | nil => exact Or.inl ⟨fresh, rfl, loaded_fresh, nofun⟩
  | append_singleton earlier text ih =>
      have last := wellFormed text (by simp)
      rcases ih fun other member => wellFormed other (List.mem_append_left _ member) with
        ⟨s, run, loaded, bounded⟩ | ⟨run, other, member, unbounded⟩
      · by_cases next : Bounded (entries text)
        · obtain ⟨t, load, reloaded⟩ := loaded.load last next
          refine Or.inl ⟨t, ?_, reloaded, fun other member => ?_⟩
          · rw [loadAll_append, run, Option.bind_some, load]
          · rcases List.mem_append.mp member with member | member
            · exact bounded other member
            · rw [List.mem_singleton.mp member]
              exact next
        · refine Or.inr ⟨?_, text, by simp, next⟩
          rw [loadAll_append, run, Option.bind_some, loaded.overflow last next]
      · refine Or.inr ⟨?_, other, List.mem_append_left _ member, unbounded⟩
        rw [loadAll_append, run, Option.bind_none]

/-- After any files an id is looked up rightly exactly where no file has had the id without a
successor, and where the id is not the highest of all, or not in the last file.
-/
theorem spell_iff (texts : List (List Char)) (last : List Char)
    (wellFormed : ∀ text ∈ texts ++ [last], WellFormedText text) (id : UInt32)
    : ((loadAll (texts ++ [last])).bind fun s => s.spell id) = some (lastOf id (entries last))
      ↔ (∀ text ∈ texts ++ [last], Bounded (entries text))
        ∧ (id ≠ highest (texts ++ [last]) ∨ ∀ t ∈ entries last, t.spell ≠ id) := by
  rcases loadAll_eq wellFormed with ⟨s, run, loaded, bounded⟩ | ⟨run, text, member, unbounded⟩
  · rw [run, Option.bind_some, and_iff_right bounded, ← loaded.maxSpell, ← lastOf_eq_none]
    have spells := loaded.spells
    rw [List.getLast?_concat] at spells
    obtain ⟨table, there, holds⟩ := spells
    have below {t : SpellEntry} (listed : t ∈ entries last) : t.spell ≤ s.maxSpell := by
      rw [loaded.maxSpell, highest_append]
      exact (le_foldl_raise _ _).2 t listed
    rw [spell]
    by_cases outside : id ≥ s.maxSpell
    · rw [if_pos outside, Option.some.injEq, eq_comm]
      constructor
      · exact Or.inr
      · rintro (other | missing)
        · refine (lastOf_eq_none id _).mpr fun t listed same => other ?_
          exact UInt32.le_antisymm (same ▸ below listed) outside
        · exact missing
    · have less := UInt32.not_le.mp outside
      rw [if_neg outside, there, Option.bind_some, holds.places id (UInt32.le_of_lt less)]
      exact iff_of_true rfl (Or.inl (UInt32.ne_of_lt less))
  · rw [run, Option.bind_none]
    exact iff_of_false nofun fun both => unbounded (both.1 text member)

/-- A line with an id, and nothing else that matters. -/
def idLine (id : List Char) : List Char := id ++ List.replicate 51 '^'

/-- Two spells. -/
def twoSpells : List Char := idLine ['5'] ++ '\n' :: idLine ['9']

theorem spell_iff_twoSpells
    : ((loadAll [twoSpells]).bind fun s => s.spell 5) = some (lastOf 5 (entries twoSpells))
      ∧ (lastOf 5 (entries twoSpells)).isSome = true :=
  ⟨(spell_iff [] twoSpells (by decide +kernel) 5).mpr
    ⟨by decide +kernel, Or.inl (by decide +kernel)⟩, by decide +kernel⟩

/-- The spell with the highest id is not found. -/
theorem not_spell
    : ¬ ∀ (texts : List (List Char)) (last : List Char),
        (∀ text ∈ texts ++ [last], WellFormedText text) → ∀ id : UInt32,
          ((loadAll (texts ++ [last])).bind fun s => s.spell id)
            = some (lastOf id (entries last)) := by
  intro always
  have found := congrArg (Option.map Option.isSome) (always [] twoSpells (by decide +kernel) 9)
  exact absurd found (by decide +kernel)

end Spells
end Scry
