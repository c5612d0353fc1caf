import Scry.Maps.MapFile
import Scry.Spells.SpellShell

/-! The durations of the spell table. The fields of a spell's line are unsigned, what holds them
and what `calcDuration` returns is signed, so that a large argument and the permanent formula
come out negative, and what is cast with them is not shown.
-/

namespace Scry

/-- `playerClasses`. -/
def playerClasses : Nat := 16

/-- `Spell`, as a line of the table has it. -/
structure SpellEntry where
  spell : UInt32
  name : String
  buffDurationFormula : Int16
  buffDurationArgument : Int16
  targetType : UInt8
  beneficial : Bool
  icon : UInt16
  classLevels : List UInt8
  deriving DecidableEq

/-- The smaller of two `int16_t`. -/
def minInt16 (a b : Int16) : Int16 := if b < a then b else a

/-- `lroundf` of a quotient. A level halved is exact, and six tenths of a level are never half way
between two integers, so that what the floats leave out does not show.
-/
def lroundf (num den : Nat) : Nat := (2 * num + den) / (2 * den)

namespace SpellEntry

/-- The fields of a line. -/
def fieldsOf (line : List Char) : List (List Char) := line.splitOn '^'

/-- The 16-bit number in a field; 0 where there is no such field. -/
def number (spellInfo : List (List Char)) (field : Nat) : UInt16 :=
  Maps.toUShort (spellInfo[field]?.getD [])

/-- The constructor; none where a field is read that the line does not have. -/
def ofLine (line : List Char) : Option SpellEntry :=
  let spellInfo := fieldsOf line
  if 36 + playerClasses ≤ spellInfo.length then
    some
      { spell := (Maps.toUInt? (spellInfo[0]?.getD [])).getD 0
        name := String.ofList (spellInfo[1]?.getD [])
        buffDurationFormula := (number spellInfo 11).toInt16
        buffDurationArgument := (number spellInfo 12).toInt16
        targetType := (number spellInfo 32).toUInt8
        beneficial := number spellInfo 28 ≠ 0
        icon := number spellInfo 75
        classLevels := (List.range playerClasses).map fun i => (number spellInfo (36 + i)).toUInt8 }
  else none

/-- A song is what a bard can cast. -/
def isSong (t : SpellEntry) : Bool := t.classLevels[7]? ≠ some 255

def calcDuration (t : SpellEntry) (level : UInt8) : Int16 :=
  let argument := t.buffDurationArgument
  match t.buffDurationFormula.toInt with
  | 0 => 0
  | 1 | 6 => minInt16 (.ofNat (lroundf level.toNat 2)) argument
  | 3 | 4 | 11 | 12 => argument
  | 2 => minInt16 (.ofNat (lroundf (level.toNat * 6) 10)) argument
  | 5 => 3
  | 7 => minInt16 (.ofNat level.toNat) argument
  | 8 => minInt16 (.ofNat (level.toNat + 10)) argument
  | 9 => minInt16 (.ofNat (level.toNat * 2 + 10)) argument
  | 10 => minInt16 (.ofNat (level.toNat * 3 + 10)) argument
  | 50 => .ofNat 65535
  | 51 => argument
  | 3600 => 3600
  | _ => argument

/-- The spell as the shell reads it. -/
def toSpell (t : SpellEntry) : Spell where
  name := t.name
  isSong := t.isSong
  beneficial := t.beneficial
  icon := t.icon
  targetType := t.targetType
  calcDuration := t.calcDuration

end SpellEntry

-----------------------------------------------------------------------------------------
-- The value of a formula
-----------------------------------------------------------------------------------------

/-- The duration that a formula stands for, in ticks: part of the level, or the level and more,
capped by the argument; the argument; or a constant.
-/
def formulaValue (formula argument : UInt16) (level : UInt8) : Nat :=
  match formula.toNat with
  | 0 => 0
  | 1 | 6 => min (lroundf level.toNat 2) argument.toNat
  | 2 => min (lroundf (level.toNat * 6) 10) argument.toNat
  | 5 => 3
  | 7 => min level.toNat argument.toNat
  | 8 => min (level.toNat + 10) argument.toNat
  | 9 => min (level.toNat * 2 + 10) argument.toNat
  | 10 => min (level.toNat * 3 + 10) argument.toNat
  | 50 => 65535
  | 3600 => 3600
  | _ => argument.toNat

namespace SpellEntry

theorem lroundf_half (n : Nat) : lroundf n 2 = (n + 1) / 2 := by
  rw [lroundf]
  omega

theorem lroundf_tenths (n : Nat) : lroundf (n * 6) 10 = (n * 6 + 5) / 10 := by
  rw [lroundf]
  omega

/-- A number that fits keeps its value in the signed type. -/
theorem toInt_ofNat {n : Nat} (small : n < 2 ^ 15) : (Int16.ofNat n).toInt = n :=
  Int16.toInt_ofNat_of_lt small

theorem toInt_minInt16 (a b : Int16) : (minInt16 a b).toInt = min a.toInt b.toInt := by
  rw [minInt16]
  split_ifs with less
  · rw [min_eq_right (Int.le_of_lt (Int16.lt_iff_toInt_lt.mp less))]
  · rw [min_eq_left (Int.not_lt.mp fun under => less (Int16.lt_iff_toInt_lt.mpr under))]

/-- What an unsigned field becomes. -/
theorem toInt_toInt16 (n : UInt16)
    : n.toInt16.toInt = if n.toNat < 2 ^ 15 then (n.toNat : Int) else n.toNat - 2 ^ 16 := by
  change n.toBitVec.toInt = _
  rw [BitVec.toInt_eq_toNat_cond, UInt16.toNat_toBitVec]
  split_ifs
  · rfl
  · omega
  · omega
  · rfl

/-- The signed formula tells the unsigned one where it is small. -/
theorem formula_eq {formula : UInt16} {k : Nat} (small : k < 2 ^ 15)
    (is : formula.toInt16.toInt = k)
    : formula = .ofNat k := by
  have upper := formula.toNat_lt
  apply UInt16.toNat_inj.mp
  rw [toInt_toInt16] at is
  rw [UInt16.toNat_ofNat_of_lt' (Nat.lt_trans small (by decide))]
  split_ifs at is <;> omega

/-- A spell with the two fields that make its duration. -/
structure Lasts (t : SpellEntry) (formula argument : UInt16) : Prop where
  formula : t.buffDurationFormula = formula.toInt16
  argument : t.buffDurationArgument = argument.toInt16

variable {t : SpellEntry} {formula argument : UInt16}

/-- Where the argument is small and the spell not permanent, the duration is that of the formula.
By cases on the formula, as the source has them.
-/
theorem calcDuration_toInt (lasts : t.Lasts formula argument) (small : argument.toNat < 2 ^ 15)
    (passing : formula.toNat ≠ 50) (level : UInt8)
    : (t.calcDuration level).toInt = formulaValue formula argument level := by
  have level_lt := level.toNat_lt
  have capped {n : Nat} (fits : n < 2 ^ 15)
      : (minInt16 (.ofNat n) argument.toInt16).toInt = (min n argument.toNat : Nat) := by
    rw [toInt_minInt16, toInt_ofNat fits, toInt_toInt16, if_pos small]
    omega
  have plain : argument.toInt16.toInt = argument.toNat := by rw [toInt_toInt16, if_pos small]
  rw [calcDuration, lasts.formula, lasts.argument]
  split
  · rename_i is
    obtain rfl := formula_eq (k := 0) (by decide) is
    rfl
  · rename_i is
    obtain rfl := formula_eq (k := 1) (by decide) is
    exact capped (by rw [lroundf_half]; omega)
  · rename_i is
    obtain rfl := formula_eq (k := 6) (by decide) is
    exact capped (by rw [lroundf_half]; omega)
  · rename_i is
    obtain rfl := formula_eq (k := 3) (by decide) is
    exact plain
  · rename_i is
    obtain rfl := formula_eq (k := 4) (by decide) is
    exact plain
  · rename_i is
    obtain rfl := formula_eq (k := 11) (by decide) is
    exact plain
  · rename_i is
    obtain rfl := formula_eq (k := 12) (by decide) is
    exact plain
  · rename_i is
    obtain rfl := formula_eq (k := 2) (by decide) is
    exact capped (by rw [lroundf_tenths]; omega)
  · rename_i is
    obtain rfl := formula_eq (k := 5) (by decide) is
    rfl
  · rename_i is
    obtain rfl := formula_eq (k := 7) (by decide) is
    exact capped (by omega)
  · rename_i is
    obtain rfl := formula_eq (k := 8) (by decide) is
    exact capped (by omega)
  · rename_i is
    obtain rfl := formula_eq (k := 9) (by decide) is
    exact capped (by omega)
  · rename_i is
    obtain rfl := formula_eq (k := 10) (by decide) is
    exact capped (by omega)
  · rename_i is
    obtain rfl := formula_eq (k := 50) (by decide) is
    exact absurd rfl passing
  · rename_i is
    obtain rfl := formula_eq (k := 51) (by decide) is
    exact plain
  · rename_i is
    obtain rfl := formula_eq (k := 3600) (by decide) is
    rfl
  · rename_i not0 not1 not6 _ _ _ _ not2 not5 not7 not8 not9 not10 not50 _ not3600
    have none {k : Nat} (small : k < 2 ^ 15) (other : formula.toInt16.toInt ≠ k)
        : formula.toNat ≠ k := by
      rintro rfl
      exact other (by rw [toInt_toInt16, if_pos small])
    rw [plain, formulaValue]
    split
    · exact absurd ‹_› (none (by decide) not0)
    · exact absurd ‹_› (none (by decide) not1)
    · exact absurd ‹_› (none (by decide) not6)
    · exact absurd ‹_› (none (by decide) not2)
    · exact absurd ‹_› (none (by decide) not5)
    · exact absurd ‹_› (none (by decide) not7)
    · exact absurd ‹_› (none (by decide) not8)
    · exact absurd ‹_› (none (by decide) not9)
    · exact absurd ‹_› (none (by decide) not10)
    · exact absurd ‹_› (none (by decide) not50)
    · exact absurd ‹_› (none (by decide) not3600)
    · rfl

/-- A constant does not depend on the argument. -/
def isConstant (formula : UInt16) : Bool := formula = 0 || formula = 5 || formula = 3600

/-- What the signed types can hold of a duration: anything but the permanent one, of an argument
that is not too large, or of none.
-/
def Fits (formula argument : UInt16) : Prop :=
  formula ≠ 50 ∧ (argument.toNat < 2 ^ 15 ∨ isConstant formula = true)

theorem calcDuration_of_fits (lasts : t.Lasts formula argument) (fits : Fits formula argument)
    (level : UInt8)
    : (t.calcDuration level).toInt = formulaValue formula argument level := by
  obtain ⟨passing, small | constant⟩ := fits
  · refine calcDuration_toInt lasts small (fun same => passing ?_) level
    exact UInt16.toNat_inj.mp same
  · rw [isConstant, Bool.or_eq_true, Bool.or_eq_true, decide_eq_true_eq, decide_eq_true_eq,
      decide_eq_true_eq] at constant
    rw [calcDuration, lasts.formula]
    rcases constant with (rfl | rfl) | rfl
    · rfl
    · rfl
    · rfl

/-- Where a duration depends on the argument, it is not above it. By cases on the formula. -/
theorem calcDuration_le (lasts : t.Lasts formula argument) (passing : formula ≠ 50)
    (depends : isConstant formula = false) (level : UInt8)
    : (t.calcDuration level).toInt ≤ argument.toInt16.toInt := by
  have capped (a : Int16) : (minInt16 a argument.toInt16).toInt ≤ argument.toInt16.toInt := by
    rw [toInt_minInt16]
    exact Int.min_le_right _ _
  rw [isConstant, Bool.or_eq_false_iff, Bool.or_eq_false_iff, decide_eq_false_iff_not,
    decide_eq_false_iff_not, decide_eq_false_iff_not] at depends
  obtain ⟨⟨not0, not5⟩, not3600⟩ := depends
  rw [calcDuration, lasts.formula, lasts.argument]
  split
  · exact absurd (formula_eq (k := 0) (by decide) ‹_›) not0
  · exact capped _
  · exact capped _
  · exact Int.le_refl _
  · exact Int.le_refl _
  · exact Int.le_refl _
  · exact Int.le_refl _
  · exact capped _
  · exact absurd (formula_eq (k := 5) (by decide) ‹_›) not5
  · exact capped _
  · exact capped _
  · exact capped _
  · exact capped _
  · exact absurd (formula_eq (k := 50) (by decide) ‹_›) passing
  · exact Int.le_refl _
  · exact absurd (formula_eq (k := 3600) (by decide) ‹_›) not3600
  · exact Int.le_refl _

/-- What is returned as permanent does not fit the result. -/
theorem calcDuration_permanent (permanent : t.buffDurationFormula = 50) (level : UInt8)
    : t.calcDuration level = -1 := by
  rw [calcDuration, permanent]
  rfl

/-- Everything else comes out negative. -/
theorem calcDuration_neg (lasts : t.Lasts formula argument) (misfits : ¬ Fits formula argument)
    (level : UInt8)
    : (t.calcDuration level).toInt < 0 := by
  by_cases passing : formula = 50
  · have permanent : t.buffDurationFormula = 50 := by
      rw [lasts.formula, passing]
      rfl
    rw [calcDuration_permanent permanent]
    decide
  · have large : ¬ argument.toNat < 2 ^ 15 := fun small => misfits ⟨passing, Or.inl small⟩
    have depends : isConstant formula = false :=
      Bool.eq_false_iff.mpr fun constant => misfits ⟨passing, Or.inr constant⟩
    have capped := calcDuration_le lasts passing depends level
    have upper := argument.toNat_lt
    rw [toInt_toInt16, if_neg large] at capped
    omega

/-- A higher level lasts no shorter. -/
theorem formulaValue_monotone (formula argument : UInt16) {low high : UInt8} (le : low ≤ high)
    : formulaValue formula argument low ≤ formulaValue formula argument high := by
  have levels : low.toNat ≤ high.toNat := UInt8.le_iff_toNat_le.mp le
  rw [formulaValue, formulaValue, lroundf_half, lroundf_half, lroundf_tenths, lroundf_tenths]
  split <;> omega

-----------------------------------------------------------------------------------------
-- What the shell makes of it
-----------------------------------------------------------------------------------------

/-- A new item at the end of a list, with a positive duration. -/
def Adds (before after : List SpellItem) : Prop :=
  ∃ i : SpellItem, after = before ++ [i] ∧ 0 < i.duration

theorem not_adds_self (items : List SpellItem) : ¬ Adds items items := by
  rintro ⟨i, same, -⟩
  exact absurd (congrArg List.length same) (by simp)

/-- Ticks are six seconds. -/
theorem toInt_seconds (ticks : Int16) : (ticks.toInt32 * 6).toInt = ticks.toInt * 6 := by
  have lower := ticks.le_toInt
  have upper := ticks.toInt_lt
  rw [Int32.toInt_mul, Int16.toInt_toInt32]
  change (ticks.toInt * 6).bmod (2 ^ 32) = _
  rw [Int.bmod_eq_of_le] <;> omega

theorem seconds_pos_iff (ticks : Int16) : 0 < ticks.toInt32 * 6 ↔ 0 < ticks.toInt := by
  rw [Int32.lt_iff_toInt_lt, toInt_seconds]
  change 0 < _ ↔ _
  omega

theorem update_duration (i : SpellItem) (w : SpellWorld) (spellId : UInt32)
    (spell : Option Spell) (duration : Int32) (casterId : UInt16) (casterName : String)
    (targetId : UInt16) (targetName : String)
    : (i.update w spellId spell duration casterId casterName targetId targetName).duration
      = duration := by
  cases spell <;> rfl

section Shell

variable {s : SpellShell} {w : SpellWorld}

/-- The timer is none of the lists. -/
theorem start_lists (s : SpellShell)
    : s.start.spellList = s.spellList ∧ s.start.targetEffects = s.targetEffects := by
  rw [SpellShell.start]
  split_ifs
  · exact ⟨rfl, rfl⟩
  · exact ⟨rfl, rfl⟩

/-- An update of a spell that is not there adds it. -/
theorem adds_applyBuff {spellId : UInt32} {owner : UInt16} {duration : Int32} (slot : UInt8)
    (new : s.findSpell spellId owner "" = none) (positive : 0 < duration)
    : Adds s.spellList (s.applyBuff w spellId owner duration slot).spellList := by
  rw [SpellShell.applyBuff, new]
  dsimp only
  rw [(start_lists _).1]
  refine ⟨_, rfl, ?_⟩
  split_ifs
  · rw [update_duration]
    exact positive
  · rw [update_duration]
    exact positive

/-- The initial sync of a spell that the shell does not have shows it where it lasts. -/
theorem buff_adds_iff {out : BuffRecord} (form : out.form = 1)
    (spell : BuffEntry.IsSpell out.spellId)
    (owned : w.playerId = 0 ∨ out.spawnId = w.playerId.toUInt32)
    (known : w.spell out.spellId = some t.toSpell)
    (new : s.findSpell out.spellId out.spawnId.toUInt16 "" = none)
    : Adds s.spellList (s.buff w false (some out)).spellList
      ↔ 0 < (t.calcDuration w.playerLevel).toInt := by
  have isMine : ¬ (¬ out.form = 3 ∧ w.playerId ≠ 0 ∧ out.spawnId ≠ w.playerId.toUInt32) := by
    rintro ⟨-, isPlayer, other⟩
    exact other (owned.resolve_left isPlayer)
  have notCompact : ¬ out.form = 3 := by rw [form]; decide
  have notFade : ¬ out.form = 0 := by rw [form]; decide
  have isSpell : ¬ (out.spellId = 0xffffffff ∨ out.spellId = 0) := fun marker => spell marker.symm
  have duration : ((w.spell out.spellId).elim 0 fun spell =>
      (spell.calcDuration w.playerLevel).toInt32 * 6)
      = (t.calcDuration w.playerLevel).toInt32 * 6 := by
    rw [known]
    rfl
  rw [SpellShell.buff, if_neg Bool.false_ne_true]
  dsimp only
  rw [if_neg isMine, if_neg isSpell, if_neg notCompact, if_neg notCompact, if_neg notFade,
    if_pos form, duration, ← seconds_pos_iff]
  by_cases ends : (t.calcDuration w.playerLevel).toInt32 * 6 ≤ 0
  · rw [if_pos ends]
    exact iff_of_false (not_adds_self _) (Int32.not_lt.mpr ends)
  · have positive := Int32.not_le.mp ends
    rw [if_neg ends]
    exact iff_of_true (adds_applyBuff out.slot new positive) positive

theorem tableDuration_known {spell : UInt16} {level : UInt8}
    (known : w.spell spell.toUInt32 = some t.toSpell)
    : SpellShell.tableDuration w spell level = (t.calcDuration level).toInt32 * 6 := by
  rw [SpellShell.tableDuration, known]
  rfl

/-- A spell that is cast on the player, and that the shell does not have, is shown where it
lasts.
-/
theorem action_adds_iff {a : ActionRecord} (type : a.type = 0xe7)
    (known : w.spell a.spell.toUInt32 = some t.toSpell)
    (new : s.findSpell a.spell.toUInt32 a.target (SpellShell.nameOf w a.target) = none)
    (mine : a.target = w.playerId)
    : Adds s.spellList (s.action w (some a)).spellList ↔ 0 < (t.calcDuration a.level).toInt := by
  rw [SpellShell.action]
  dsimp only
  rw [if_neg (fun other => other type), new]
  dsimp only
  rw [if_pos mine, tableDuration_known known, ← seconds_pos_iff]
  by_cases lasts : (t.calcDuration a.level).toInt32 * 6 > 0
  · rw [if_pos lasts, (start_lists _).1]
    refine iff_of_true ⟨_, rfl, ?_⟩ lasts
    rw [update_duration]
    exact lasts
  · rw [if_neg lasts]
    exact iff_of_false (not_adds_self _) lasts

/-- So is a spell that the player casts on a mob, among the effects. -/
theorem action_addsEffect_iff {a : ActionRecord} (type : a.type = 0xe7)
    (known : w.spell a.spell.toUInt32 = some t.toSpell)
    (new : s.findSpell a.spell.toUInt32 a.target (SpellShell.nameOf w a.target) = none)
    (newEffect : s.findEffect a.spell.toUInt32 a.target = none) (other : a.target ≠ w.playerId)
    (mine : a.source = w.playerId) (isTarget : a.target ≠ 0)
    : Adds s.targetEffects (s.action w (some a)).targetEffects
      ↔ 0 < (t.calcDuration a.level).toInt := by
  rw [SpellShell.action]
  dsimp only
  rw [if_neg (fun other => other type), new]
  dsimp only
  rw [if_neg other, if_pos ⟨mine, isTarget⟩, tableDuration_known known, newEffect,
    ← seconds_pos_iff]
  by_cases ends : (t.calcDuration a.level).toInt32 * 6 ≤ 0
  · rw [if_pos ends]
    exact iff_of_false (not_adds_self _) (Int32.not_lt.mpr ends)
  · have positive := Int32.not_le.mp ends
    rw [if_neg ends]
    dsimp only
    rw [(start_lists _).2]
    refine iff_of_true ⟨_, rfl, ?_⟩ positive
    rw [update_duration]
    exact positive

end Shell

-----------------------------------------------------------------------------------------
-- Sane durations
-----------------------------------------------------------------------------------------

/-- What is expected of the durations of a spell with a formula and an argument. -/
structure Sane (t : SpellEntry) (formula argument : UInt16) : Prop where
  exact : ∀ level, (t.calcDuration level).toInt = formulaValue formula argument level
  nonneg : ∀ level, 0 ≤ (t.calcDuration level).toInt
  monotone : ∀ low high, low ≤ high → (t.calcDuration low).toInt ≤ (t.calcDuration high).toInt
  permanent
    : formula = 50 → ∀ (other : SpellEntry) (level otherLevel : UInt8),
        (other.calcDuration otherLevel).toInt ≤ (t.calcDuration level).toInt
  synced
    : ∀ (s : SpellShell) (w : SpellWorld) (out : BuffRecord), out.form = 1 →
        BuffEntry.IsSpell out.spellId → (w.playerId = 0 ∨ out.spawnId = w.playerId.toUInt32) →
        w.spell out.spellId = some t.toSpell →
        s.findSpell out.spellId out.spawnId.toUInt16 "" = none →
        (Adds s.spellList (s.buff w false (some out)).spellList
          ↔ 0 < formulaValue formula argument w.playerLevel)
  cast
    : ∀ (s : SpellShell) (w : SpellWorld) (a : ActionRecord), a.type = 0xe7 →
        w.spell a.spell.toUInt32 = some t.toSpell →
        s.findSpell a.spell.toUInt32 a.target (SpellShell.nameOf w a.target) = none →
        a.target = w.playerId →
        (Adds s.spellList (s.action w (some a)).spellList
          ↔ 0 < formulaValue formula argument a.level)
  castOn
    : ∀ (s : SpellShell) (w : SpellWorld) (a : ActionRecord), a.type = 0xe7 →
        w.spell a.spell.toUInt32 = some t.toSpell →
        s.findSpell a.spell.toUInt32 a.target (SpellShell.nameOf w a.target) = none →
        s.findEffect a.spell.toUInt32 a.target = none → a.target ≠ w.playerId →
        a.source = w.playerId → a.target ≠ 0 →
        (Adds s.targetEffects (s.action w (some a)).targetEffects
          ↔ 0 < formulaValue formula argument a.level)

/-- The durations are sane where they fit the types. -/
theorem sane_of_fits (lasts : t.Lasts formula argument) (fits : Fits formula argument)
    : t.Sane formula argument := by
  have exact := calcDuration_of_fits lasts fits
  have positive (level : UInt8)
      : 0 < (t.calcDuration level).toInt ↔ 0 < formulaValue formula argument level := by
    rw [exact]
    exact Int.natCast_pos
  refine ⟨exact, fun level => ?_, fun low high le => ?_, fun same => absurd same fits.1, ?_, ?_,
    ?_⟩
  · rw [exact]
    exact Int.natCast_nonneg _
  · rw [exact, exact]
    exact Int.ofNat_le.mpr (formulaValue_monotone formula argument le)
  · intro s w out form spell owned known new
    exact (buff_adds_iff form spell owned known new).trans (positive _)
  · intro s w a type known new mine
    exact (action_adds_iff type known new mine).trans (positive _)
  · intro s w a type known new newEffect other mine isTarget
    exact (action_addsEffect_iff type known new newEffect other mine isTarget).trans (positive _)

theorem lasts_ofLine {line : List Char} (read : ofLine line = some t)
    : t.Lasts (number (fieldsOf line) 11) (number (fieldsOf line) 12) := by
  rw [ofLine] at read
  split_ifs at read
  obtain rfl := Option.some.inj read
  exact ⟨rfl, rfl⟩

/-- The durations of a line are sane exactly where its formula and argument fit. -/
theorem sane_iff_fits (line : List Char) (t : SpellEntry) (read : ofLine line = some t)
    : t.Sane (number (fieldsOf line) 11) (number (fieldsOf line) 12)
      ↔ Fits (number (fieldsOf line) 11) (number (fieldsOf line) 12) := by
  have lasts := lasts_ofLine read
  constructor
  · intro sane
    by_contra misfits
    exact absurd (sane.nonneg 0) (Int.not_le.mpr (calcDuration_neg lasts misfits 0))
  · exact sane_of_fits lasts

/-- A line with a formula and an argument, and nothing else that matters. -/
def plainLine (formula argument : List Char) : List Char :=
  '1' :: List.replicate 11 '^' ++ formula ++ '^' :: argument ++ List.replicate 39 '^'

theorem sane_iff_fits_plainLine
    : ∃ t, ofLine (plainLine ['7'] ['2', '0']) = some t
      ∧ t.Sane 7 20 ∧ (t.calcDuration 50).toInt = 20 := by
  have read : (ofLine (plainLine ['7'] ['2', '0'])).isSome = true := by decide +kernel
  obtain ⟨t, isRead⟩ := Option.isSome_iff_exists.mp read
  have formula : number (fieldsOf (plainLine ['7'] ['2', '0'])) 11 = 7 := by decide +kernel
  have argument : number (fieldsOf (plainLine ['7'] ['2', '0'])) 12 = 20 := by decide +kernel
  have sane := sane_iff_fits _ t isRead
  rw [formula, argument] at sane
  have isSane : t.Sane 7 20 := sane.mpr ⟨by decide, Or.inl (by decide)⟩
  refine ⟨t, isRead, isSane, ?_⟩
  rw [isSane.exact]
  decide

/-- The permanent formula is shorter than any other. -/
theorem not_sane
    : ¬ ∀ line t, ofLine line = some t →
        t.Sane (number (fieldsOf line) 11) (number (fieldsOf line) 12) := by
  intro always
  have read : (ofLine (plainLine ['5', '0'] ['0'])).isSome = true := by decide +kernel
  obtain ⟨t, isRead⟩ := Option.isSome_iff_exists.mp read
  have formula : t.buffDurationFormula = 50 := by
    have same : (ofLine (plainLine ['5', '0'] ['0'])).map (·.buffDurationFormula) = some 50 := by
      decide +kernel
    rw [isRead] at same
    exact Option.some.inj same
  have nonneg := (always _ t isRead).nonneg 1
  rw [calcDuration_permanent formula] at nonneg
  exact absurd nonneg (by decide)

end SpellEntry
end Scry
