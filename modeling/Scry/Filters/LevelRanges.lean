import Scry.Filters.RuleNames
import Scry.Library.Decimal

/-! Level ranges behind a pattern. One constructor of a rule reads them off the pattern, the
other is given them; clients reach only the other one, and give it none.
-/

namespace Scry

open Decimal (Numeral)
open FilterItem (markHashOptional)

-----------------------------------------------------------------------------------------
-- The constructor that reads the range
-----------------------------------------------------------------------------------------

/-- The text before the first such character and, if there is one, the text behind it. -/
def breakAt (c : Char) (text : List Char) : List Char × Option (List Char) :=
  (text.takeWhile (· ≠ c), if c ∈ text then some (text.dropWhile (· ≠ c)).tail else none)

/-- A level as `toInt` reads it, in an unsigned variable; what is no number leaves 0 there. -/
def readLevel (text : List Char) : UInt32 :=
  match Decimal.signed? 32 text with
  | some level => .ofNat (level % 2 ^ 32).toNat
  | none => 0

/-- The levels that a text behind the semicolon stands for. -/
def readLevels (levelString : List Char) : UInt32 × UInt32 :=
  let (minLevel, maxLevel) :=
    match breakAt '-' levelString with
    | (level, none) => (readLevel level, 0)
    | (level, some []) => (readLevel level, 2147483647)
    | (level, some rest) => (readLevel level, readLevel rest)
  (minLevel, if maxLevel < minLevel then minLevel else maxLevel)

/-- `FilterItem(filterPattern, caseSensitive)`. The levels are narrowed on their way to `init`. -/
def FilterItem.ofPattern (filterPattern : List Char) (caseSensitive : Bool) : FilterItem :=
  match breakAt ';' filterPattern with
  | (regexString, none) => .init regexString caseSensitive 0 0
  | (regexString, some levelString) =>
      .init regexString caseSensitive (readLevels levelString).1.toUInt8
        (readLevels levelString).2.toUInt8

-----------------------------------------------------------------------------------------
-- What a range is for
-----------------------------------------------------------------------------------------

/-- The range behind a pattern: one level, that level and above, or one level to another. -/
inductive LevelSuffix
  | exactly (m : Numeral)
  | from (m : Numeral)
  | between (m n : Numeral)

namespace LevelSuffix

def text : LevelSuffix → List Char
  | exactly m => ';' :: m.digits
  | .from m => ';' :: (m.digits ++ ['-'])
  | between m n => ';' :: (m.digits ++ '-' :: n.digits)

/-- The levels of the range start above 0 and are in order. -/
def Ordered : LevelSuffix → Prop
  | exactly m => 0 < m.value
  | .from m => 0 < m.value
  | between m n => 0 < m.value ∧ m.value ≤ n.value

/-- A spawn's level is in the range. -/
def Includes : LevelSuffix → Nat → Prop
  | exactly m, level => level = m.value
  | .from m, level => m.value ≤ level
  | between m n, level => m.value ≤ level ∧ level ≤ n.value

/-- The range is still the same in 8 bits: it ends at a level of 8 bits, or what its bounds
become there comes to the same by chance.
-/
def Fits : LevelSuffix → Prop
  | exactly m => m.value ≤ 255
  | .from m => m.value ≤ 255
  | between m n =>
      n.value ≤ 255
      ∨ (m.value ≤ 255 ∧ 255 < n.value ∧ n.value < 2 ^ 31 ∧ n.value % 256 = 255)
      ∨ (m.value = 255 ∧ 2 ^ 31 ≤ n.value)
      ∨ (255 < m.value ∧ n.value < 2 ^ 31 ∧ n.value % 256 < m.value % 256)

instance (suffix : LevelSuffix) : Decidable suffix.Ordered :=
  match suffix with
  | exactly m => inferInstanceAs (Decidable (0 < m.value))
  | .from m => inferInstanceAs (Decidable (0 < m.value))
  | between m n => inferInstanceAs (Decidable (0 < m.value ∧ m.value ≤ n.value))

end LevelSuffix

namespace FilterItem

/-- A regular expression matches a string, whatever the level: the rule of it alone does. -/
def Matches (re : RegularExpressions) (caseSensitive : Bool) (regex filterString : List Char)
    : Prop :=
  (init regex caseSensitive 0 0).isFiltered re filterString 0 = true

/-- A rule means a regular expression with a range: it is searched with the expression alone,
and matches what the expression does at the levels of the range.
-/
structure Means (re : RegularExpressions) (item : FilterItem) (regex : List Char)
    (suffix : LevelSuffix)
    : Prop where
  stripped : item.pattern = markHashOptional regex
  levels : ∀ (filterString : List Char) (level : UInt8),
    item.isFiltered re filterString level = true
      ↔ Matches re item.caseSensitive regex filterString ∧ suffix.Includes level.toNat

-----------------------------------------------------------------------------------------
-- The levels of a rule
-----------------------------------------------------------------------------------------

/-- The levels that the bounds of a rule let through. -/
def Allows (minLevel maxLevel level : Nat) : Prop :=
  if 0 < minLevel ∨ 0 < maxLevel then
    if maxLevel ≠ minLevel then minLevel ≤ level ∧ level ≤ maxLevel else level = minLevel
  else True

theorem allows_iff {minLevel maxLevel level : Nat}
    : Allows minLevel maxLevel level
      ↔ (minLevel = 0 ∧ maxLevel = 0) ∨ (minLevel ≤ level ∧ level ≤ maxLevel) := by
  rw [Allows]
  split_ifs with some other
  · omega
  · omega
  · exact iff_of_true trivial (by omega)

theorem matches_iff {re : RegularExpressions} {caseSensitive : Bool}
    {regex filterString : List Char}
    : Matches re caseSensitive regex filterString
      ↔ re.isValid (markHashOptional regex) = true
        ∧ re.occursIn caseSensitive (markHashOptional regex) filterString = true := by
  simp only [Matches, isFiltered, init]
  cases re.isValid (markHashOptional regex)
  · simp
  · simp

/-- A rule matches where its expression does, at the levels that its bounds let through. -/
theorem isFiltered_init {re : RegularExpressions} {caseSensitive : Bool}
    {regex filterString : List Char} {minLevel maxLevel level : UInt8}
    : (init regex caseSensitive minLevel maxLevel).isFiltered re filterString level = true
      ↔ Matches re caseSensitive regex filterString
        ∧ Allows minLevel.toNat maxLevel.toNat level.toNat := by
  rw [matches_iff]
  simp only [isFiltered, init, Allows, UInt8.lt_iff_toNat_lt, UInt8.le_iff_toNat_le,
    ne_eq, ← UInt8.toNat_inj, UInt8.toNat_zero]
  cases re.isValid (markHashOptional regex) with
  | false => simp
  | true =>
      cases re.occursIn caseSensitive (markHashOptional regex) filterString with
      | false => simp
      | true =>
          simp only [Bool.not_true, Bool.false_eq_true, if_false, if_true, true_and]
          split_ifs <;> simp

end FilterItem

-----------------------------------------------------------------------------------------
-- The bounds that a suffix becomes
-----------------------------------------------------------------------------------------

theorem breakAt_of_not_mem {c : Char} {text : List Char} (none : c ∉ text)
    : breakAt c text = (text, Option.none) := by
  have all : ∀ a ∈ text, (decide (a ≠ c)) = true := by
    intro a member
    exact decide_eq_true fun same => none (same ▸ member)
  rw [breakAt, if_neg none, List.takeWhile_eq_self_iff.mpr all]

/-- The first such character is the one that is found. -/
theorem breakAt_append {c : Char} {front : List Char} (none : c ∉ front) (rest : List Char)
    : breakAt c (front ++ c :: rest) = (front, some rest) := by
  have all : ∀ a ∈ front, (decide (a ≠ c)) = true := by
    intro a member
    exact decide_eq_true fun same => none (same ▸ member)
  rw [breakAt, if_pos (List.mem_append_right _ List.mem_cons_self),
    List.takeWhile_append_of_pos all, List.dropWhile_append_of_pos all]
  simp

/-- The value that is read for a numeral: a number of more than 31 bits is none. -/
def readValue (n : Numeral) : Nat := if n.value < 2 ^ 31 then n.value else 0

theorem readLevel_numeral (n : Numeral) : (readLevel n.digits).toNat = readValue n := by
  rw [readLevel, Decimal.signed?_numeral, readValue]
  split_ifs with fits
  · have small : ((n.value : Int) % 2 ^ 32).toNat = n.value := by omega
    have below : n.value < UInt32.size := by
      change n.value < 4294967296
      omega
    simp only [small, UInt32.toNat_ofNat_of_lt' below]
  · rfl

namespace LevelSuffix

/-- The bounds of the rule, before they are narrowed. -/
def bounds : LevelSuffix → Nat × Nat
  | exactly m => (readValue m, readValue m)
  | .from m => (readValue m, 2147483647)
  | between m n => (readValue m, max (readValue m) (readValue n))

theorem readLevels_text (suffix : LevelSuffix)
    : (readLevels suffix.text.tail).1.toNat = suffix.bounds.1
      ∧ (readLevels suffix.text.tail).2.toNat = suffix.bounds.2 := by
  have hyphen : ∀ n : Numeral, '-' ∉ n.digits := fun n => n.not_mem rfl
  cases suffix with
  | exactly m =>
      simp only [readLevels, text, List.tail_cons, breakAt_of_not_mem (hyphen m), bounds,
        UInt32.lt_iff_toNat_lt, UInt32.toNat_zero, readLevel_numeral]
      refine ⟨trivial, ?_⟩
      split_ifs with positive
      · exact readLevel_numeral m
      · simp only [UInt32.toNat_zero]
        omega
  | «from» m =>
      simp only [readLevels, text, List.tail_cons, breakAt_append (hyphen m), bounds,
        UInt32.lt_iff_toNat_lt, readLevel_numeral]
      have most : readValue m < 2 ^ 31 := by
        rw [readValue]
        split_ifs <;> omega
      refine ⟨trivial, ?_⟩
      rw [if_neg (by change ¬ 2147483647 < readValue m; omega)]
      rfl
  | between m n =>
      obtain ⟨c, rest, cons⟩ := List.exists_cons_of_ne_nil n.nonempty
      have behind := readLevel_numeral n
      rw [cons] at behind
      simp only [readLevels, text, List.tail_cons, breakAt_append (hyphen m), bounds, cons,
        UInt32.lt_iff_toNat_lt, readLevel_numeral, behind]
      refine ⟨trivial, ?_⟩
      split_ifs
      · rw [readLevel_numeral]
        omega
      · rw [behind]
        omega

theorem text_eq_cons (suffix : LevelSuffix) : suffix.text = ';' :: suffix.text.tail := by
  cases suffix <;> rfl

/-- The constructor that reads the range keeps the expression apart, and its bounds in 8
bits.
-/
theorem ofPattern_text {regex : List Char} (plain : ';' ∉ regex) (suffix : LevelSuffix)
    (caseSensitive : Bool)
    : ∃ minLevel maxLevel : UInt8,
      FilterItem.ofPattern (regex ++ suffix.text) caseSensitive
        = .init regex caseSensitive minLevel maxLevel
      ∧ minLevel.toNat = suffix.bounds.1 % 256 ∧ maxLevel.toNat = suffix.bounds.2 % 256 := by
  obtain ⟨low, high⟩ := suffix.readLevels_text
  refine ⟨(readLevels suffix.text.tail).1.toUInt8, (readLevels suffix.text.tail).2.toUInt8,
    ?_, ?_, ?_⟩
  · rw [FilterItem.ofPattern, suffix.text_eq_cons, breakAt_append plain]
    rfl
  · rw [UInt32.toNat_toUInt8, low]
  · rw [UInt32.toNat_toUInt8, high]

/-- Narrowed to 8 bits, the bounds let the levels of the range through exactly where the
range fits.
-/
theorem allows_iff_fits {suffix : LevelSuffix} (ordered : suffix.Ordered)
    : (∀ level < 256, FilterItem.Allows (suffix.bounds.1 % 256) (suffix.bounds.2 % 256) level
          ↔ suffix.Includes level)
      ↔ suffix.Fits := by
  simp only [FilterItem.allows_iff]
  cases suffix with
  | exactly m =>
      simp only [bounds, Includes, Fits, Ordered, readValue] at ordered ⊢
      constructor
      · intro same
        have lowest := same 0 (by omega)
        have bound := same (m.value % 256) (by omega)
        split_ifs at lowest bound <;> omega
      · intro fits level _
        split_ifs <;> omega
  | «from» m =>
      simp only [bounds, Includes, Fits, Ordered, readValue] at ordered ⊢
      constructor
      · intro same
        have highest := same 255 (by omega)
        omega
      · intro fits level _
        split_ifs <;> omega
  | between m n =>
      simp only [bounds, Includes, Fits, Ordered, readValue] at ordered ⊢
      constructor
      · intro same
        have lowest := same 0 (by omega)
        have highest := same 255 (by omega)
        have bound := same (m.value % 256) (by omega)
        split_ifs at lowest highest bound <;> omega
      · intro fits level _
        split_ifs <;> omega

end LevelSuffix

-----------------------------------------------------------------------------------------
-- The two entry points
-----------------------------------------------------------------------------------------

namespace FilterItem

variable {re : RegularExpressions} {regex : List Char} {suffix : LevelSuffix}

/-- The rule that the reading constructor makes means the range exactly where the range fits
8 bits, unless the expression matches nothing anyhow.
-/
theorem means_ofPattern_iff (plain : ';' ∉ regex) (ordered : suffix.Ordered)
    (caseSensitive : Bool)
    : (ofPattern (regex ++ suffix.text) caseSensitive).Means re regex suffix
      ↔ ((∃ filterString, Matches re caseSensitive regex filterString) → suffix.Fits) := by
  obtain ⟨minLevel, maxLevel, rule, low, high⟩ := suffix.ofPattern_text plain caseSensitive
  rw [rule, ← LevelSuffix.allows_iff_fits ordered, ← low, ← high]
  constructor
  · rintro ⟨_, levels⟩ ⟨filterString, found⟩ level small
    have same := levels filterString (.ofNat level)
    rw [isFiltered_init, UInt8.toNat_ofNat_of_lt' small] at same
    exact ⟨fun allowed => (same.mp ⟨found, allowed⟩).2,
      fun included => (same.mpr ⟨found, included⟩).2⟩
  · intro fits
    refine ⟨rfl, fun filterString level => ?_⟩
    rw [isFiltered_init]
    exact and_congr_right fun found => fits ⟨filterString, found⟩ level.toNat level.toNat_lt

/-- A suffix stays inside the pattern of the rule that is given no levels. -/
theorem not_means_init (caseSensitive : Bool)
    : ¬ (init (regex ++ suffix.text) caseSensitive 0 0).Means re regex suffix := by
  rintro ⟨stripped, _⟩
  rw [init, suffix.text_eq_cons, markHashOptional_append] at stripped
  have lengths := congrArg List.length stripped
  simp at lengths

end FilterItem

/-- A rule that a client adds from a pattern with a range behind it never means the range: it
is searched with the suffix. The constructor that would read the range off makes a rule that
means it exactly where the range fits 8 bits.
-/
theorem Filters.level_ranges (re : RegularExpressions) {regex : List Char}
    (plain : ';' ∉ regex) {suffix : LevelSuffix} (ordered : suffix.Ordered)
    : (∀ (f : Filters) (type : UInt8) (item : FilterItem),
          (f.addFilter re type (regex ++ suffix.text) 0 0).2.rulesOf (FilterTypes.mask type)
            = f.rulesOf (FilterTypes.mask type) ++ [item] →
          ¬ item.Means re regex suffix)
      ∧ ∀ caseSensitive,
          (FilterItem.ofPattern (regex ++ suffix.text) caseSensitive).Means re regex suffix
            ↔ ((∃ filterString, FilterItem.Matches re caseSensitive regex filterString) →
                suffix.Fits) := by
  refine ⟨?_, FilterItem.means_ofPattern_iff plain ordered⟩
  intro f type item added
  have more : (f.addFilter re type (regex ++ suffix.text) 0 0).2.rulesOf (FilterTypes.mask type)
      ≠ f.rulesOf (FilterTypes.mask type) := by
    rw [added]
    simp
  cases registered : f.types.validMask (FilterTypes.mask type) with
  | false =>
      rw [addFilter_unregistered registered] at more
      exact absurd rfl more
  | true =>
      by_cases named : Named (f.rulesOf (FilterTypes.mask type)) (regex ++ suffix.text)
      · rw [(addFilter_named registered named).2] at more
        exact absurd rfl more
      · obtain ⟨_, caseSensitive, rules⟩ := addFilter_fresh re 0 0 registered named
        rw [rules, Function.update_self] at added
        obtain rfl : FilterItem.init (regex ++ suffix.text) caseSensitive 0 0 = item := by
          simpa using added
        exact FilterItem.not_means_init caseSensitive

/-- Level five. -/
def levelFive : LevelSuffix := .exactly ⟨['5'], by decide, by decide⟩

theorem Filters.level_ranges_five
    : ¬ (FilterItem.init "orc;5".toList false 0 0).Means anyPattern "orc".toList levelFive
      ∧ (FilterItem.ofPattern "orc;5".toList false).Means anyPattern "orc".toList levelFive := by
  have plain : ';' ∉ "orc".toList := by decide
  have ordered : levelFive.Ordered := by decide
  have fits : (5 : Nat) ≤ 255 := by decide
  exact ⟨(level_ranges anyPattern plain ordered).1 (new FilterTypes.registered false) 0 _ rfl,
    ((level_ranges anyPattern plain ordered).2 false).mpr fun _ => fits⟩

/-- The rule that a client adds from `orc;5` is searched with the semicolon and the level. -/
theorem Filters.not_level_ranges
    : ((new FilterTypes.registered false).addFilter anyPattern 0 "orc;5".toList 0 0).2.rulesOf 1
        = [FilterItem.init "orc;5".toList false 0 0]
      ∧ ¬ (FilterItem.init "orc;5".toList false 0 0).Means anyPattern "orc".toList levelFive := by
  refine ⟨by decide, fun means => ?_⟩
  exact absurd means.stripped (by decide)

end Scry
