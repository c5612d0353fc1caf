import Scry.Messages.MessageFilters
import Scry.Preferences.Reload

/-! What new message filters read of the preferences that old ones wrote.
A slot's name tells whether there is a filter in it, and the options of an expression are not
written.
-/

namespace Scry

open TextStream

namespace MessageFilters

variable {content : Type} {formats : FileFormats content} {numbers : NumberReader}
  {hasMatch : HasMatch} {m : MessageFilters} {p : TomlPreferences} {f : MessageFilter}

/-- What is done with filters. -/
inductive Operation
  | addFilter (filter : MessageFilter)
  | remFilter (filter : MessageFilterRef)

def step (op : Operation) (m : MessageFilters) : MessageFilters :=
  match op with
  | .addFilter filter => (m.addFilter filter).1
  | .remFilter filter =>
      match filter.slot? m with
      | none => m
      | some slot => (m.remSlot slot).1

/-- The filter as which one comes back. -/
def restored (f : MessageFilter) : Option MessageFilter :=
  if f.name = [] then none else some { f with regexp := { pattern := f.regexp.pattern } }

/-- The preferences of each slot are those of its filter. -/
structure Mirrored (numbers : NumberReader) (m : MessageFilters) : Prop where
  runtime : m.prefs.runtime = .empty
  slots (slot : Slot) : load numbers m.prefs slot = (m.filters slot).bind restored

-----------------------------------------------------------------------------------------
-- Keys
-----------------------------------------------------------------------------------------

/-- The endings of the keys. -/
def endings : List String := ["Name", "Pattern", "Types"]

/-- The endings start with letters, so that they do not run into the numbers. -/
theorem endings_letters : ∀ e ∈ endings, ∀ c ∈ e.toList.head?, c.isDigit = false := by
  have letters : ∀ e ∈ endings, e.toList.head?.all (fun c => !c.isDigit) = true := by
    decide
  intro e member c first
  simpa [Option.mem_def.mp first] using letters e member

theorem key_eq_iff {slot other : Slot} {left right : String} (hl : left ∈ endings)
    (hr : right ∈ endings)
    : key slot left = key other right ↔ slot = other ∧ left = right := by
  constructor
  · intro same
    obtain ⟨numbers, texts⟩ :=
      decimal_append_inj (endings_letters left hl) (endings_letters right hr) same
    exact ⟨Fin.ext numbers, String.toList_injective texts⟩
  · rintro ⟨rfl, rfl⟩
    rfl

/-- What the preferences of a slot hold after they were set. -/
theorem find_store (runtime : p.runtime = .empty) (slot other : Slot) (name pattern : List Char)
    (types : UInt64) {ending : String} (listed : ending ∈ endings)
    : (store p slot name pattern types).find (key other ending) sectionName .any
      = if other = slot then
          [("Name", PreferenceValue.str name), ("Pattern", .str pattern),
            ("Types", .uint types)].lookup ending
        else p.find (key other ending) sectionName .any := by
  have keys {e : String} (he : e ∈ endings)
      : key other ending = key slot e ↔ other = slot ∧ ending = e := key_eq_iff listed he
  rw [store, TomlPreferences.find_setPref, TomlPreferences.find_setPref,
    TomlPreferences.find_setPref runtime]
  · simp only [keys (show "Types" ∈ endings by decide), keys (show "Pattern" ∈ endings by decide),
      keys (show "Name" ∈ endings by decide), true_and]
    by_cases here : other = slot
    · simp only [here, true_and, if_true]
      simp only [endings, List.mem_cons, List.not_mem_nil, or_false] at listed
      rcases listed with rfl | rfl | rfl <;> rfl
    · simp only [here, false_and, if_false]
  · exact runtime
  · exact runtime

/-- What a slot is read as after its preferences were set. -/
theorem load_store (runtime : p.runtime = .empty) (slot other : Slot) (name pattern : List Char)
    (types : UInt64)
    : load numbers (store p slot name pattern types) other
      = if other = slot then restored ⟨name, types, { pattern }⟩ else load numbers p other := by
  have found {e : String} (he : e ∈ endings) := find_store runtime slot other name pattern types he
  rw [load, TomlPreferences.getPrefString, TomlPreferences.getPrefString,
    TomlPreferences.getPrefUInt64, found (show "Name" ∈ endings by decide),
    found (show "Pattern" ∈ endings by decide), found (show "Types" ∈ endings by decide)]
  by_cases here : other = slot
  · simp only [here, if_true]
    rfl
  · simp only [here, if_false]
    rfl

-----------------------------------------------------------------------------------------
-- Runs
-----------------------------------------------------------------------------------------

/-- What was read comes back as it is. -/
theorem restored_load (slot : Slot) : (load numbers p slot).bind restored = load numbers p slot := by
  rw [load]
  split_ifs with none
  · rfl
  · exact if_neg none

theorem mirrored_create (runtime : p.runtime = .empty) : Mirrored numbers (create numbers p) :=
  ⟨runtime, fun slot => (restored_load slot).symm⟩

theorem mirrored_step (m : MessageFilters) (op : Operation) (mirrored : Mirrored numbers m)
    : Mirrored numbers (m.step op) := by
  cases op with
  | addFilter f =>
      rw [step, addFilter]
      cases m.vacant with
      | none => exact mirrored
      | some slot =>
          refine ⟨mirrored.runtime, ?_⟩
          intro other
          refine (load_store mirrored.runtime slot other _ _ _).trans ?_
          change _ = (if other = slot then some f else m.filters other).bind restored
          by_cases here : other = slot
          · rw [if_pos here, if_pos here]
            rfl
          · rw [if_neg here, if_neg here, mirrored.slots]
  | remFilter filter =>
      rw [step]
      cases filter.slot? m with
      | none => exact mirrored
      | some slot =>
          dsimp only
          rw [remSlot]
          cases m.filters slot with
          | none => exact mirrored
          | some f =>
              refine ⟨mirrored.runtime, ?_⟩
              intro other
              refine (load_store mirrored.runtime slot other _ _ _).trans ?_
              change _ = (if other = slot then none else m.filters other).bind restored
              by_cases here : other = slot
              · rw [if_pos here, if_pos here]
                rfl
              · rw [if_neg here, if_neg here, mirrored.slots]

/-- New filters serve as the old ones: slot by slot there is a filter with the same name that
meets the same types and texts, or none.
-/
def SameSlots (hasMatch : HasMatch) (old new : Slot → Option MessageFilter) : Prop :=
  ∀ slot,
    (old slot = none ∧ new slot = none)
    ∨ ∃ f g, old slot = some f ∧ new slot = some g ∧ g.name = f.name
        ∧ ∀ type text, g.isFiltered hasMatch type text = f.isFiltered hasMatch type text

/-- A filter with a name whose expression meets the same texts without its options, if there is a
type that it is asked for.
-/
def Lasts (hasMatch : HasMatch) (f : MessageFilter) : Prop :=
  f.name ≠ []
  ∧ ∀ type : MessageType, f.types.toBitVec.getLsbD type = true →
      ∀ text, hasMatch { pattern := f.regexp.pattern } text = hasMatch f.regexp text

theorem isFiltered_eq (type : MessageType) (text : List Char)
    : f.isFiltered hasMatch type text
      = (f.types.toBitVec.getLsbD type && hasMatch f.regexp text) := by
  rw [Bool.eq_iff_iff, Messages.isFiltered_iff, Bool.and_eq_true]

/-- A filter that comes back is the same exactly where it lasts. -/
theorem restored_iff
    : (∃ g, restored f = some g ∧ g.name = f.name
          ∧ ∀ type text, g.isFiltered hasMatch type text = f.isFiltered hasMatch type text)
      ↔ Lasts hasMatch f := by
  rw [restored, Lasts]
  by_cases none : f.name = []
  · simp [none]
  · simp only [none, if_false, Option.some_inj, exists_eq_left', true_and, isFiltered_eq, ne_eq,
      not_false_eq_true]
    refine forall_congr' fun type => ?_
    cases f.types.toBitVec.getLsbD type with
    | false => simp
    | true => simp

/-- After every run new filters over the same preferences serve as the old ones exactly where each
filter has a name and its expression goes without its options.
-/
theorem sameSlots_iff (formats : FileFormats content) (numbers : NumberReader)
    (hasMatch : HasMatch) (defaultsFile userFile : List Char) (disk : Disk content)
    (writable : Bool) (ops : List Operation)
    : let prefs := (TomlPreferences.create formats numbers defaultsFile userFile disk writable).1
      let m := Machine.exec step (create numbers prefs) ops
      SameSlots hasMatch m.filters (create numbers m.prefs).filters
        ↔ ∀ slot f, m.filters slot = some f → Lasts hasMatch f := by
  intro prefs m
  have mirrored : Mirrored numbers m :=
    Machine.exec_invariant
      (mirrored_create (TomlPreferences.create_runtime defaultsFile userFile writable))
      mirrored_step ops
  refine forall_congr' fun slot => ?_
  change (_ ∧ load numbers m.prefs slot = none)
    ∨ (∃ f g, _ ∧ load numbers m.prefs slot = some g ∧ _) ↔ _
  rw [mirrored.slots]
  cases m.filters slot with
  | none => simp
  | some f => simp [← restored_iff]

/-- Filters that serve alike meet the same messages. -/
theorem SameSlots.any_eq {old new : Slot → Option MessageFilter} (same : SameSlots hasMatch old new)
    (slot : Slot) (type : MessageType) (text : List Char)
    : ((new slot).any fun f => f.isFiltered hasMatch type text)
      = (old slot).any fun f => f.isFiltered hasMatch type text := by
  rcases same slot with ⟨oldNone, newNone⟩ | ⟨f, g, oldSome, newSome, -, alike⟩
  · rw [oldNone, newNone]
  · rw [oldSome, newSome]
    exact alike type text

/-- An expression of letters is met where it stands in the text, in any case under option 1. -/
def lettersMatch : HasMatch := fun e text =>
  let fold (s : List Char) := if e.patternOptions &&& 1 = 1 then s.map Char.toLower else s
  (fold text).tails.any fun rest => (fold e.pattern).isPrefixOf rest

/-- A filter for `MT_Say` that leaves the case aside, and one without a name. -/
def sampleRun : MessageFilters :=
  Machine.exec step
    (create TomlPreferences.sampleNumbers
      (TomlPreferences.create TomlPreferences.sampleFormats TomlPreferences.sampleNumbers
        "def.toml".toList "user.toml".toList (fun _ => none) true).1)
    [.addFilter ⟨"afk".toList, 0x100, ⟨"afk".toList, 1⟩⟩, .addFilter ⟨[], 0x100, ⟨['x'], 0⟩⟩]

/-- Both are others after a restart. -/
theorem not_sameSlots
    : ¬ SameSlots lettersMatch sampleRun.filters
        (create TomlPreferences.sampleNumbers sampleRun.prefs).filters
      ∧ sampleRun.filters ⟨1, by decide⟩ ≠ none
      ∧ (create TomlPreferences.sampleNumbers sampleRun.prefs).filters ⟨1, by decide⟩ = none := by
  refine ⟨?_, by decide +kernel, by decide +kernel⟩
  intro same
  have before : ((sampleRun.filters ⟨0, by decide⟩).any fun f =>
      f.isFiltered lettersMatch 8 "AFK".toList) = true := by decide +kernel
  have after : (((create TomlPreferences.sampleNumbers sampleRun.prefs).filters
      ⟨0, by decide⟩).any fun f => f.isFiltered lettersMatch 8 "AFK".toList) = false := by decide +kernel
  rw [same.any_eq, before] at after
  cases after

end MessageFilters

end Scry
