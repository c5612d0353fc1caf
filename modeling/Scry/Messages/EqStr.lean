import Scry.Library.Decimal
import Scry.Library.Rescan

/-! Messages that are formatted from a table of strings. A string has placeholders for
arguments, and placeholders for other strings of the table whose numbers are arguments; these
are put in by two loops that search on inside of what they put in.
-/

namespace Scry

open Rescan

/-- `EQStr`: a string for each number, empty where the table has none. -/
structure EQStr where
  messageStrings : Int32 → List Char

namespace EQStr

/-- The number of UTF-16 units of a character. -/
def units (c : Char) : Nat := if c.toNat < 0x10000 then 1 else 2

theorem units_pos (c : Char) : 0 < units c := by
  rw [units]
  split_ifs <;> decide

/-- `%T(\d{1,3})`. -/
def rxt : Pattern Char where
  mark := ['%', 'T']
  isDigit := Char.isDigit
  most := 3
  width := units
  marked := by decide
  wide := units_pos

/-- `%(\d{1,3})`. -/
def rx : Pattern Char where
  mark := ['%']
  isDigit := Char.isDigit
  most := 3
  width := units
  marked := by decide
  wide := units_pos

/-- `toInt` of the digits of a placeholder. -/
def substArg (digits : List Char) : Nat := Nat.ofDigitChars 10 digits 0

/-- `argList[substArg - 1]`, where it is looked up at all. What it finds before the list can be
anything.
-/
def argument (argList : List (List Char)) (stray : List Char) (substArg : Nat)
    : Option (List Char) :=
  if substArg ≤ argList.length then
    match substArg with
    | 0 => some stray
    | i + 1 => argList[i]?
  else none

/-- An argument behind its last caret, without an apostrophe. -/
def plainArgument (sub : List Char) : List Char :=
  if '^' ∈ sub then
    match (sub.reverse.takeWhile (· ≠ '^')).reverse with
    | '\'' :: rest => rest
    | rest => rest
  else sub

variable (q : EQStr) (argList : List (List Char)) (stray : List Char)

/-- The string that the argument of a `%T` placeholder names. -/
def substFormatString (digits : List Char) : List Char :=
  match argument argList stray (substArg digits) with
  | none => []
  | some arg =>
      match Decimal.signed? 32 arg with
      | none => []
      | some substArgValue => q.messageStrings (Int32.ofInt substArgValue)

/-- What a `%T` placeholder is replaced by: the search goes on where its digits began, or as far
behind them as they ended.
-/
def putTemplate : Rule Char := fun digits =>
  match substFormatString q argList stray digits with
  | [] => ([], 2 + digits.length)
  | c :: rest => (c :: rest, 2)

/-- What a `%` placeholder is replaced by. -/
def putArgument : Rule Char := fun digits =>
  match argument argList stray (substArg digits) with
  | some sub => (plainArgument sub, 1)
  | none => ([], 1 + digits.length)

/-- The two loops of `formatMessage`, in so many rounds each at most. -/
def formatLoops (rounds : Nat) (formatStringRes : List Char) : Option (List Char) :=
  (rxt.run (putTemplate q argList stray) rounds formatStringRes).bind fun formatString =>
    rx.run (putArgument argList stray) rounds formatString

variable {q argList stray}

theorem finite_isDigit : {c : Char | c.isDigit = true}.Finite := by
  have injective : Function.Injective Char.toNat := fun c d same => Char.toNat_inj.mp same
  refine Set.Finite.of_finite_image ((Set.finite_lt_nat 58).subset ?_) injective.injOn
  rintro _ ⟨c, digit, rfl⟩
  simp only [Set.mem_ofPred_eq, Char.isDigit, ge_iff_le, Bool.and_eq_true, decide_eq_true_eq,
    UInt32.le_iff_toNat_le] at digit
  exact Nat.lt_succ_of_le digit.2

/-- Both loops end if and only if the first one comes to no placeholder that is met again inside
of the string it brings, and neither does the second one in what the first one leaves.
-/
theorem formatLoops_isSome_iff (q : EQStr) (argList : List (List Char)) (stray : List Char)
    (formatStringRes : List Char)
    : (∃ rounds, (formatLoops q argList stray rounds formatStringRes).isSome)
      ↔ ¬ rxt.Loops (putTemplate q argList stray) formatStringRes
        ∧ ∀ rounds formatString,
            rxt.run (putTemplate q argList stray) rounds formatStringRes = some formatString →
              ¬ rx.Loops (putArgument argList stray) formatString := by
  rw [← Pattern.ends_iff finite_isDigit]
  simp only [← Pattern.ends_iff (p := rx) finite_isDigit]
  constructor
  · rintro ⟨rounds, done⟩
    obtain ⟨text, isDone⟩ := Option.isSome_iff_exists.mp done
    obtain ⟨formatString, first, second⟩ := Option.bind_eq_some_iff.mp isDone
    refine ⟨⟨rounds, Option.isSome_iff_exists.mpr ⟨_, first⟩⟩, fun others other again => ?_⟩
    have same : other = formatString := Pattern.run_unique again first
    exact same ▸ ⟨rounds, Option.isSome_iff_exists.mpr ⟨_, second⟩⟩
  · rintro ⟨⟨rounds, done⟩, ends⟩
    obtain ⟨formatString, first⟩ := Option.isSome_iff_exists.mp done
    obtain ⟨others, second⟩ := ends rounds formatString first
    refine ⟨max rounds others, ?_⟩
    rw [formatLoops, Pattern.run_mono first (Nat.le_max_left _ _)]
    exact Pattern.run_isSome_mono second (Nat.le_max_right _ _)

/-- An argument that has its own placeholder behind two other characters is put in again and
again.
-/
theorem not_formatLoops_isSome
    : ¬ ∀ (q : EQStr) (argList : List (List Char)) (stray : List Char) (formatid : UInt32),
        ∃ rounds,
          (formatLoops q argList stray rounds (q.messageStrings formatid.toInt32)).isSome := by
  intro always
  let q : EQStr := ⟨fun _ => "%1".toList⟩
  obtain ⟨rounds, done⟩ := always q ["xx%1".toList] [] 1
  obtain ⟨text, isDone⟩ := Option.isSome_iff_exists.mp done
  obtain ⟨formatString, first, second⟩ := Option.bind_eq_some_iff.mp isDone
  -- The string has no `%T` placeholder: the first loop leaves it.
  have left : rxt.run (putTemplate q ["xx%1".toList] []) 1 (q.messageStrings (1 : UInt32).toInt32)
      = some "%1".toList := rfl
  obtain rfl := Pattern.run_unique first left
  have found (before : List Char) (short : before = [] ∨ before = ['x'])
      : rx.find (before ++ "%1".toList) = some ⟨before, ['1'], []⟩ := by
    rcases short with rfl | rfl <;> rfl
  have loops : rx.Loops (putArgument ["xx%1".toList] []) "%1".toList :=
    ⟨_, _, .refl, found [] (.inl rfl), "x%1".toList, rfl, List.cons_ne_nil _ _, "x%1".toList,
      .refl, ['x'], [], found ['x'] (.inr rfl), rfl⟩
  exact Pattern.not_ends_of_loops loops ⟨rounds, Option.isSome_iff_exists.mpr ⟨_, second⟩⟩

end EQStr

end Scry
