import Scry.Categories.CategoryMgr

/-! What a reload reads of the categories that were saved.
The first 32 come back in their order, with colours that are valid. The numbers behind them are
written over with blanks.
-/

namespace Scry

namespace CategoryMgr

variable {content : Type} {formats : FileFormats content} {numbers : NumberReader}
  {p : TomlPreferences} {m : CategoryMgr} {c : Category}

/-- The category as which one comes back; one without a name or a filter is none. -/
def restored (c : Category) : Option Category :=
  if c.name ≠ [] ∧ c.filter ≠ [] then some { c with color := { c.color with valid := true } }
  else none

/-- A number that holds a category is read as that category. -/
theorem readCategory_of_find (readsHex : SeqColor.ReadsHex numbers) {i : Nat}
    (found : ∀ e ∈ endings, p.find (key i e) sectionName .any = field c e)
    : readCategory numbers p i = restored c := by
  have name : p.find (key i "Name") sectionName .any = some (.str c.name) :=
    found "Name" (by decide)
  have filter : p.find (key i "Filter") sectionName .any = some (.str c.filter) :=
    found "Filter" (by decide)
  have filterout : p.find (key i "FilterOut") sectionName .any = some (.str c.filterout) :=
    found "FilterOut" (by decide)
  have color : p.find (key i "Color") sectionName .any = some (.str c.color.name) :=
    found "Color" (by decide)
  have read : SeqColor.ofText numbers c.color.name = { c.color with valid := true } :=
    SeqColor.ofText_name readsHex c.color
  rw [readCategory, TomlPreferences.isPreference, TomlPreferences.isPreference,
    TomlPreferences.getPrefString, TomlPreferences.getPrefString, TomlPreferences.getPrefString,
    TomlPreferences.getPrefColor, name, filter, filterout, color]
  simp only [PreferenceValue.toText, read]
  rfl

/-- Reading the numbers from a count on is going through the list of what stands under them. -/
theorem filterMap_range' {α β : Type} (read : α → Option β) (xs : List α) (count k : Nat)
    : (List.range' count k).filterMap (fun i => (xs[i - count]?).bind read)
      = (xs.take k).filterMap read := by
  induction k generalizing xs count with
  | zero => simp
  | succ k ih =>
      cases xs with
      | nil => simp
      | cons x rest =>
          have shifted : ∀ i ∈ List.range' (count + 1) k,
              ((x :: rest)[i - count]?).bind read = (rest[i - (count + 1)]?).bind read := by
            intro i member
            have above := (List.mem_range'_1.mp member).1
            have next : i - count = i - (count + 1) + 1 := by omega
            rw [next]
            rfl
          rw [List.range'_succ, List.filterMap_cons, List.filterMap_congr shifted, ih,
            List.take_succ_cons, List.filterMap_cons, Nat.sub_self]
          rfl

theorem writeCategories_append (p : TomlPreferences) (count : Nat) (front back : List Category)
    : writeCategories p count (front ++ back)
      = writeCategories (writeCategories p count front) (count + front.length) back := by
  induction front generalizing p count with
  | nil => rfl
  | cons c rest ih =>
      rw [List.cons_append, writeCategories, ih, writeCategories, List.length_cons,
        Nat.add_assoc, Nat.add_comm 1]

/-- What is read after categories were written under the numbers from one on. -/
theorem reload_written (readsHex : SeqColor.ReadsHex numbers) (runtime : p.runtime = .empty)
    (cs : List Category) (enough : tMaxNumCategories ≤ cs.length)
    : (List.range' 1 tMaxNumCategories).filterMap (readCategory numbers (writeCategories p 1 cs))
      = (cs.take tMaxNumCategories).filterMap restored := by
  rw [← filterMap_range' restored cs 1]
  apply List.filterMap_congr
  intro i member
  have bounds := List.mem_range'_1.mp member
  have inside : i - 1 < cs.length := by omega
  rw [List.getElem?_eq_getElem inside, Option.bind_some]
  apply readCategory_of_find readsHex
  intro e listed
  rw [find_writeCategories runtime _ _ _ listed, if_pos ⟨bounds.1, by omega⟩,
    List.getElem?_eq_getElem inside, Option.bind_some]

/-- What a save and a reload make of a list that may differ from the preferences. -/
theorem reload_savePrefs (readsHex : SeqColor.ReadsHex numbers) (runtime : m.prefs.runtime = .empty)
    (changed : m.changed = true)
    : ((m.savePrefs numbers).reloadCategories numbers).categories
      = (m.categories.take tMaxNumCategories).filterMap restored := by
  rw [savePrefs, changed]
  change (List.range' 1 tMaxNumCategories).filterMap (readCategory numbers
    (writeCategories (writeCategories m.prefs 1 m.categories) (1 + m.categories.length)
      (List.replicate (tMaxNumCategories - m.categories.length) (blank numbers)))) = _
  rw [← writeCategories_append, reload_written readsHex runtime]
  · have skipped : restored (blank numbers) = none := if_neg fun both => both.1 rfl
    rw [List.take_append, List.filterMap_append, List.take_replicate,
      List.filterMap_replicate_of_none skipped, List.append_nil]
  · rw [List.length_append, List.length_replicate]
    omega

-----------------------------------------------------------------------------------------
-- Runs
-----------------------------------------------------------------------------------------

theorem valid_black (numbers : NumberReader) : (black numbers).valid = true := rfl

theorem valid_getPrefColor (i : Nat)
    : (p.getPrefColor numbers (key i "Color") sectionName (black numbers) .any).valid = true := by
  rw [TomlPreferences.getPrefColor]
  cases p.find (key i "Color") sectionName .any with
  | none => exact valid_black numbers
  | some v =>
      dsimp only
      split_ifs with valid
      · exact valid
      · exact valid_black numbers

/-- Whatever is read has a name, a filter and a valid colour. -/
theorem readCategory_sound {i : Nat} (read : readCategory numbers p i = some c)
    : c.name ≠ [] ∧ c.filter ≠ [] ∧ c.color.valid = true := by
  obtain ⟨_, inside⟩ := Option.ite_none_right_eq_some.mp read
  obtain ⟨both, made⟩ := Option.ite_none_right_eq_some.mp inside
  cases made
  exact ⟨both.1, both.2, valid_getPrefColor i⟩

/-- Categories have names and filters, and what did not change is what the preferences hold. -/
structure Sound (numbers : NumberReader) (m : CategoryMgr) : Prop where
  runtime : m.prefs.runtime = .empty
  named : ∀ c ∈ m.categories, c.name ≠ [] ∧ c.filter ≠ []
  unchanged : m.changed = false →
    m.categories = (List.range' 1 tMaxNumCategories).filterMap (readCategory numbers m.prefs)

theorem runtime_writeCategories (runtime : p.runtime = .empty) (count : Nat) (cs : List Category)
    : (writeCategories p count cs).runtime = .empty := by
  induction cs generalizing p count with
  | nil => exact runtime
  | cons c rest ih => exact ih (p := writeCategory p count c) runtime _

theorem sound_reloadCategories (runtime : m.prefs.runtime = .empty)
    : Sound numbers (m.reloadCategories numbers) := by
  refine ⟨runtime, ?_, fun _ => rfl⟩
  intro c member
  obtain ⟨i, _, read⟩ := List.mem_filterMap.mp member
  have sound := readCategory_sound read
  exact ⟨sound.1, sound.2.1⟩

theorem sound_step (m : CategoryMgr) (op : Operation) (sound : Sound numbers m)
    : Sound numbers (m.step numbers op) := by
  cases op with
  | addCategory name filter filterout color =>
      change Sound numbers (m.addCategory name filter filterout color)
      rw [addCategory]
      split_ifs with both
      · refine ⟨sound.runtime, ?_, fun unchanged => Bool.noConfusion unchanged⟩
        intro c member
        rcases List.mem_append.mp member with old | new
        · exact sound.named c old
        · obtain rfl := List.mem_singleton.mp new
          exact both
      · exact ⟨sound.runtime, sound.named, fun unchanged => Bool.noConfusion unchanged⟩
  | remCategory cat =>
      cases cat with
      | none => exact ⟨sound.runtime, sound.named, fun unchanged => Bool.noConfusion unchanged⟩
      | some i =>
          refine ⟨sound.runtime, ?_, fun unchanged => Bool.noConfusion unchanged⟩
          intro c member
          exact sound.named c (List.mem_of_mem_eraseIdx member)
  | clearCategories =>
      refine ⟨sound.runtime, ?_, fun unchanged => Bool.noConfusion unchanged⟩
      intro c member
      cases member
  | reloadCategories => exact sound_reloadCategories sound.runtime
  | savePrefs =>
      change Sound numbers (m.savePrefs numbers)
      rw [savePrefs]
      split_ifs with changed
      · exact sound
      · refine ⟨runtime_writeCategories (runtime_writeCategories sound.runtime _ _) _ _,
          sound.named, ?_⟩
        intro unchanged
        exact absurd unchanged (by simpa using changed)

/-- The list that comes back is the first 32 categories with their colours made valid. -/
theorem reload_eq (readsHex : SeqColor.ReadsHex numbers) (sound : Sound numbers m)
    (changed : m.changed = true)
    : ((m.savePrefs numbers).reloadCategories numbers).categories
      = (m.categories.take tMaxNumCategories).map fun c =>
          { c with color := { c.color with valid := true } } := by
  rw [reload_savePrefs readsHex sound.runtime changed]
  rw [← List.filterMap_eq_map]
  apply List.filterMap_congr
  intro c member
  exact if_pos (sound.named c (List.mem_of_mem_take member))

/-- The categories of a new store after a run. -/
def after (numbers : NumberReader) (prefs : TomlPreferences) (ops : List Operation) : CategoryMgr :=
  Machine.exec (step numbers) (create numbers prefs) ops

theorem sound_after (runtime : p.runtime = .empty) (ops : List Operation)
    : Sound numbers (after numbers p ops) :=
  Machine.exec_invariant (sound_reloadCategories (m := ⟨[], false, p⟩) runtime) sound_step ops

/-- After every run a save and a reload leave the list as it is exactly where there are at most 32
categories and each has a valid colour.
-/
theorem reload_savePrefs_iff (readsHex : SeqColor.ReadsHex numbers)
    (formats : FileFormats content) (defaultsFile userFile : List Char) (disk : Disk content)
    (writable : Bool) (ops : List Operation)
    : let prefs := (TomlPreferences.create formats numbers defaultsFile userFile disk writable).1
      let m := after numbers prefs ops
      ((m.savePrefs numbers).reloadCategories numbers).categories = m.categories
        ↔ m.categories.length ≤ tMaxNumCategories ∧ ∀ c ∈ m.categories, c.color.valid = true := by
  intro prefs m
  have sound : Sound numbers m :=
    sound_after (TomlPreferences.create_runtime defaultsFile userFile writable) ops
  cases changed : m.changed with
  | false =>
      have same := sound.unchanged changed
      have kept : m.savePrefs numbers = m := by rw [savePrefs, changed]; rfl
      rw [kept]
      refine iff_of_true same.symm ⟨?_, ?_⟩
      · rw [same]
        exact (List.length_filterMap_le _ _).trans_eq List.length_range'
      · intro c member
        rw [same] at member
        obtain ⟨i, _, read⟩ := List.mem_filterMap.mp member
        exact (readCategory_sound read).2.2
  | true =>
      rw [reload_eq readsHex sound changed]
      constructor
      · intro back
        have lengths := congrArg List.length back
        rw [List.length_map, List.length_take] at lengths
        refine ⟨by omega, ?_⟩
        intro c member
        rw [← back] at member
        obtain ⟨old, _, rfl⟩ := List.mem_map.mp member
        rfl
      · rintro ⟨short, valid⟩
        rw [List.take_of_length_le short]
        refine (List.map_congr_left ?_).trans (List.map_id _)
        intro c member
        have there := valid c member
        obtain ⟨name, filter, filterout, r, g, b, v⟩ := c
        cases there
        rfl

/-- A new store over no files. -/
def samplePrefs : TomlPreferences :=
  (TomlPreferences.create TomlPreferences.sampleFormats TomlPreferences.sampleNumbers
    "def.toml".toList "user.toml".toList (fun _ => none) true).1

def addGuards : Operation := .addCategory "Guards".toList "Guard".toList [] (.rgb 0 0 255)

theorem reload_savePrefs_guards
    : let m := after TomlPreferences.sampleNumbers samplePrefs [addGuards]
      ((m.savePrefs TomlPreferences.sampleNumbers).reloadCategories
        TomlPreferences.sampleNumbers).categories = m.categories :=
  (reload_savePrefs_iff TomlPreferences.readsHex_sampleNumbers TomlPreferences.sampleFormats
    "def.toml".toList "user.toml".toList (fun _ => none) true [addGuards]).mpr
    (by decide +kernel)

/-- The last of 33 categories is lost. -/
theorem not_reload_savePrefs
    : let m := after TomlPreferences.sampleNumbers samplePrefs (List.replicate 33 addGuards)
      m.categories.length = 33
        ∧ ((m.savePrefs TomlPreferences.sampleNumbers).reloadCategories
          TomlPreferences.sampleNumbers).categories.length = 32 := by
  intro m
  have all : m.categories.length = 33 := by decide +kernel
  have changed : m.changed = true := by decide +kernel
  refine ⟨all, ?_⟩
  rw [reload_eq TomlPreferences.readsHex_sampleNumbers (sound_after rfl _) changed,
    List.length_map, List.length_take, all]
  rfl

end CategoryMgr

end Scry
