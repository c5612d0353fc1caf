import Scry.Categories.CategoryMgr
import Scry.Filters.LevelRanges

/-! What a category matches. Its patterns are meant to be searched without regard to case, but the
flags that ask for it arrive where it says whether case counts.
-/

namespace Scry

/-- `REG_EXTENDED` and `REG_ICASE` of `regex.h`. -/
def REG_EXTENDED : Nat := 1
def REG_ICASE : Nat := 2

namespace Category

/-- The flags a category makes its rules with. -/
def cFlags : Nat := REG_EXTENDED ||| REG_ICASE

/-- The flags are passed for `caseSensitive`. -/
def filterItem (c : Category) : FilterItem := .ofPattern c.filter (cFlags ≠ 0)

def filterOutItem (c : Category) : Option FilterItem :=
  if c.filterout.isEmpty then none else some (.ofPattern c.filterout (cFlags ≠ 0))

/-- The level that `Category::isFiltered` passes on, in 8 bits. -/
def passedLevel (level : Int32) : UInt8 := level.toUInt32.toUInt8

def isFiltered (re : RegularExpressions) (c : Category) (filterString : List Char) (level : Int32)
    : Bool :=
  if c.filterItem.isFiltered re filterString (passedLevel level) then
    match c.filterOutItem with
    | some out => !out.isFiltered re filterString (passedLevel level)
    | none => true
  else false

end Category

/-- Two strings differ in the case of ASCII letters only. -/
def SameButCase (s t : List Char) : Prop := s.map Char.toLower = t.map Char.toLower

/-- What holds of a string holds of those that differ from it in case only. -/
def CaseBlind (P : List Char → Prop) : Prop := ∀ s t, SameButCase s t → (P s ↔ P t)

namespace FilterItem

/-- The pattern of a rule is found in a string with regard to case. -/
def Finds (re : RegularExpressions) (item : FilterItem) (s : List Char) : Prop :=
  re.isValid item.pattern = true ∧ re.occursIn true item.pattern s = true

/-- A level is in the range of a rule. -/
def Admits (item : FilterItem) (level : UInt8) : Prop :=
  Allows item.minLevel.toNat item.maxLevel.toNat level.toNat

end FilterItem

namespace Category

variable {re : RegularExpressions} {c : Category} {s t : List Char} {level : UInt8}

/-- A category takes a string for what it is in any case, and matches what the filter does and
the filter-out does not.
-/
structure MatchesAnyCase (re : RegularExpressions) (c : Category) : Prop where
  anyCase : ∀ s t, SameButCase s t → ∀ level, c.isFiltered re s level = c.isFiltered re t level
  filters : ∀ s level, c.isFiltered re s level = true
    ↔ c.filterItem.isFiltered re s (passedLevel level) = true
      ∧ ∀ out ∈ c.filterOutItem, out.isFiltered re s (passedLevel level) = false

/-- Case makes no difference to where the patterns are found, as far as there are levels at
which it could: to the filter's at levels that the filter-out leaves alone, and to what the
filter-out leaves of it at levels of both.
-/
structure PatternsCaseBlind (re : RegularExpressions) (c : Category) : Prop where
  alone :
    (∃ level, c.filterItem.Admits level ∧ ∀ out ∈ c.filterOutItem, ¬ out.Admits level) →
      CaseBlind (c.filterItem.Finds re)
  both : ∀ out ∈ c.filterOutItem,
    (∃ level, c.filterItem.Admits level ∧ out.Admits level) →
      CaseBlind fun s => c.filterItem.Finds re s ∧ ¬ out.Finds re s

-----------------------------------------------------------------------------------------
-- What the rules of a category match
-----------------------------------------------------------------------------------------

theorem isFiltered_ofPattern (pattern : List Char)
    : (FilterItem.ofPattern pattern (cFlags ≠ 0)).isFiltered re s level = true
      ↔ (FilterItem.ofPattern pattern (cFlags ≠ 0)).Finds re s
        ∧ (FilterItem.ofPattern pattern (cFlags ≠ 0)).Admits level := by
  rw [FilterItem.ofPattern]
  split <;> rw [FilterItem.isFiltered_init, FilterItem.matches_iff] <;> rfl

theorem isFiltered_filterItem
    : c.filterItem.isFiltered re s level = true
      ↔ c.filterItem.Finds re s ∧ c.filterItem.Admits level :=
  isFiltered_ofPattern c.filter

theorem isFiltered_filterOutItem {out : FilterItem} (mem : out ∈ c.filterOutItem)
    : out.isFiltered re s level = true ↔ out.Finds re s ∧ out.Admits level := by
  rw [filterOutItem] at mem
  split at mem
  · cases mem
  · obtain rfl := Option.some.inj mem
    exact isFiltered_ofPattern c.filterout

/-- A category matches what the filter does and the filter-out does not. -/
theorem isFiltered_iff (re : RegularExpressions) (c : Category) (s : List Char) (level : Int32)
    : c.isFiltered re s level = true
      ↔ c.filterItem.isFiltered re s (passedLevel level) = true
        ∧ ∀ out ∈ c.filterOutItem, out.isFiltered re s (passedLevel level) = false := by
  rw [isFiltered]
  cases c.filterItem.isFiltered re s (passedLevel level) <;> cases c.filterOutItem <;> simp

/-- A category matches where the filter's pattern is found at a level of its range, and the
filter-out's is not or not at that level.
-/
theorem isFiltered_iff_finds (level : Int32)
    : c.isFiltered re s level = true
      ↔ (c.filterItem.Finds re s ∧ c.filterItem.Admits (passedLevel level))
        ∧ ∀ out ∈ c.filterOutItem, ¬ (out.Finds re s ∧ out.Admits (passedLevel level)) := by
  rw [isFiltered_iff, isFiltered_filterItem]
  refine and_congr_right fun _ => forall₂_congr fun out mem => ?_
  rw [← isFiltered_filterOutItem mem, Bool.not_eq_true]

/-- Every level of 8 bits is passed on. -/
theorem exists_passedLevel (level : UInt8) : ∃ l, passedLevel l = level :=
  ⟨level.toUInt32.toInt32, by simp [passedLevel]⟩

/-- Spelling makes no difference to a category exactly where it makes none to where its patterns
are found with regard to case.
-/
theorem matchesAnyCase_iff (re : RegularExpressions) (c : Category)
    : c.MatchesAnyCase re ↔ c.PatternsCaseBlind re := by
  constructor
  · rintro ⟨anyCase, -⟩
    have same {s t : List Char} (sameButCase : SameButCase s t) (level : UInt8)
        : ((c.filterItem.Finds re s ∧ c.filterItem.Admits level)
            ∧ ∀ out ∈ c.filterOutItem, ¬ (out.Finds re s ∧ out.Admits level))
          ↔ (c.filterItem.Finds re t ∧ c.filterItem.Admits level)
            ∧ ∀ out ∈ c.filterOutItem, ¬ (out.Finds re t ∧ out.Admits level) := by
      obtain ⟨l, rfl⟩ := exists_passedLevel level
      rw [← isFiltered_iff_finds, ← isFiltered_iff_finds, anyCase s t sameButCase l]
    constructor
    · rintro ⟨level, admits, leaves⟩ s t sameButCase
      have same := same sameButCase level
      have apart (s : List Char) : ∀ out ∈ c.filterOutItem, ¬ (out.Finds re s ∧ out.Admits level) :=
        fun out mem both => leaves out mem both.2
      simpa only [admits, and_true, iff_true_intro (apart s), iff_true_intro (apart t)] using same
    · rintro out mem ⟨level, admits, admitsOut⟩ s t sameButCase
      have same := same sameButCase level
      rw [Option.mem_def] at mem
      simpa only [mem, Option.mem_some_iff, forall_eq', admits, admitsOut, and_true] using same
  · rintro ⟨alone, both⟩
    refine ⟨fun s t sameButCase level => Bool.eq_iff_iff.mpr ?_, isFiltered_iff re c⟩
    rw [isFiltered_iff_finds, isFiltered_iff_finds]
    by_cases admits : c.filterItem.Admits (passedLevel level)
    · by_cases leaves : ∀ out ∈ c.filterOutItem, ¬ out.Admits (passedLevel level)
      · have apart (s : List Char) : ∀ out ∈ c.filterOutItem,
            ¬ (out.Finds re s ∧ out.Admits (passedLevel level)) :=
          fun out mem both => leaves out mem both.2
        rw [alone ⟨passedLevel level, admits, leaves⟩ s t sameButCase,
          iff_true_intro (apart s), iff_true_intro (apart t)]
      · push Not at leaves
        obtain ⟨out, mem, admitsOut⟩ := leaves
        have same := both out mem ⟨passedLevel level, admits, admitsOut⟩ s t sameButCase
        rw [Option.mem_def] at mem
        simpa only [mem, Option.mem_some_iff, forall_eq', admits, admitsOut, and_true] using same
    · exact iff_of_false (fun found => admits found.1.2) fun found => admits found.1.2

/-- Regular expressions as far as they are plain texts. -/
def plainTexts : RegularExpressions where
  isValid _ := true
  occursIn caseSensitive pattern s :=
    if caseSensitive then pattern <:+: s
    else pattern.map Char.toLower <:+: s.map Char.toLower

/-- A category of orcs, and an orc. -/
theorem not_matchesAnyCase
    : ¬ Category.MatchesAnyCase plainTexts
        { name := ['O'], filter := ['o', 'r', 'c'], filterout := [], color := {} } := by
  rintro ⟨anyCase, -⟩
  exact absurd (anyCase ['o', 'r', 'c'] ['O', 'R', 'C'] rfl 0) (by decide)

end Category

end Scry
