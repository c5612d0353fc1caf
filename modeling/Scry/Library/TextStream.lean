import Mathlib.Algebra.Group.Int.Defs
import Mathlib.Algebra.Group.Nat.Defs
import Mathlib.Data.List.DropRight
import Mathlib.Data.List.TakeWhile

/-! Text streams: numbers that are read after blanks and with a base found out from their first
characters, and lines. Reading goes on after a number that is none.
-/

namespace TextStream

-----------------------------------------------------------------------------------------
-- Characters
-----------------------------------------------------------------------------------------

/-- The blanks: tabulators, line ends, and the separators of Unicode. -/
def isSpace (c : Char) : Bool :=
  let n := c.toNat
  n = 0x20 || (0x09 ≤ n && n ≤ 0x0d) || n = 0x85 || n = 0xa0 || n = 0x1680
    || (0x2000 ≤ n && n ≤ 0x200a) || n = 0x2028 || n = 0x2029 || n = 0x202f || n = 0x205f
    || n = 0x3000

/-- Where the decimal digits of the scripts of 16-bit Unicode begin. -/
def decimalZeros : List Nat :=
  [0x30, 0x660, 0x6f0, 0x7c0, 0x966, 0x9e6, 0xa66, 0xae6, 0xb66, 0xbe6, 0xc66, 0xce6, 0xd66,
    0xde6, 0xe50, 0xed0, 0xf20, 0x1040, 0x1090, 0x17e0, 0x1810, 0x1946, 0x19d0, 0x1a80, 0x1a90,
    0x1b50, 0x1bb0, 0x1c40, 0x1c50, 0xa620, 0xa8d0, 0xa900, 0xa9d0, 0xa9f0, 0xaa50, 0xabf0,
    0xff10]

/-- The value of a decimal digit. -/
def digitValue (c : Char) : Option Nat :=
  (decimalZeros.find? fun first => first ≤ c.toNat && c.toNat < first + 10).map (c.toNat - ·)

/-- The value of a digit of ASCII in a base up to ten. -/
def asciiDigit (base : Nat) (c : Char) : Option Nat :=
  if '0' ≤ c ∧ c.toNat < '0'.toNat + base then some (c.toNat - '0'.toNat) else none

def hexDigit (c : Char) : Option Nat :=
  let lower := c.toLower
  if 'a' ≤ lower ∧ lower ≤ 'f' then some (lower.toNat - 'a'.toNat + 10) else asciiDigit 10 c

-----------------------------------------------------------------------------------------
-- Numbers
-----------------------------------------------------------------------------------------

/-- The digits at the front: their value after `v`, their number, and the rest. -/
def takeDigits (digit : Char → Option Nat) (base : UInt64)
    : UInt64 → List Char → UInt64 × Nat × List Char
  | v, [] => (v, 0, [])
  | v, c :: rest =>
      match digit c with
      | none => (v, 0, c :: rest)
      | some d =>
          let r := takeDigits digit base (v * base + .ofNat d) rest
          (r.1, r.2.1 + 1, r.2.2)

/-- The base that the first characters tell, and the stream as the look leaves it: the second
character behind a zero is put back in lower case.
-/
def detectBase : List Char → Option (Nat × List Char)
  | [] => none
  | c :: rest =>
      if c = '0' then
        match rest with
        | [] => some (10, [c])
        | second :: more =>
            let second := second.toLower
            let base :=
              if second = 'x' then 16
              else if second = 'b' then 2
              else if (digitValue second).any (· ≤ 7) then 8
              else 10
            some (base, c :: second :: more)
      else if c = '-' ∨ c = '+' ∨ (digitValue c).isSome then some (10, c :: rest)
      else none

/-- A value under a minus sign. -/
def negated (v : UInt64) : UInt64 := if 0 < v ∧ v < 0x8000000000000000 then 0 - v else v

/-- A decimal number with or without a sign. -/
def decimalNumber : List Char → Option UInt64 × List Char
  | [] => (none, [])
  | sign :: rest =>
      if sign = '-' ∨ sign = '+' then
        let r := takeDigits digitValue 10 0 rest
        if r.2.1 = 0 then (none, r.2.2)
        else (some (if sign = '-' then negated r.1 else r.1), r.2.2)
      else
        let r := takeDigits digitValue 10 0 (sign :: rest)
        if r.2.1 = 0 then (none, r.2.2) else (some r.1, r.2.2)

/-- A number behind a prefix. Without digits the prefix is put back, but for that of base 16. -/
def prefixedNumber (base : Nat) (s : List Char) : Option UInt64 × List Char :=
  let (digit, width) :=
    if base = 16 then (hexDigit, 2) else if base = 2 then (asciiDigit 2, 2) else (asciiDigit 8, 1)
  let r := takeDigits digit (.ofNat base) 0 (s.drop width)
  if r.2.1 = 0 then (none, if base = 16 then r.2.2 else s) else (some r.1, r.2.2)

/-- The next number, if there is one, and the rest of the stream. -/
def getNumber (s : List Char) : Option UInt64 × List Char :=
  let s := s.dropWhile isSpace
  match detectBase s with
  | none => (none, s)
  | some (base, s) => if base = 10 then decimalNumber s else prefixedNumber base s

/-- What is stored for the next number: zero where there is none. -/
def readNumber (s : List Char) : UInt64 × List Char :=
  let r := getNumber s
  (r.1.getD 0, r.2)

-----------------------------------------------------------------------------------------
-- Lines
-----------------------------------------------------------------------------------------

/-- The next line, without its end. -/
def readLine (s : List Char) : List Char × List Char :=
  let line := s.takeWhile (· ≠ '\n')
  let rest := (s.dropWhile (· ≠ '\n')).drop 1
  (if line.getLast? = some '\r' then line.dropLast else line, rest)

/-- Text without some characters around it. -/
def trimBy (p : Char → Bool) (s : List Char) : List Char := (s.dropWhile p).rdropWhile p

/-- Text without the blanks around it. -/
def trimmed (s : List Char) : List Char := trimBy isSpace s

/-- The lines of a text, each with its end. -/
def lines : List Char → List (List Char)
  | [] => []
  | c :: rest =>
      if c = '\n' then [c] :: lines rest
      else
        match lines rest with
        | [] => [[c]]
        | line :: more => (c :: line) :: more

/-- The blanks of ASCII. -/
def asciiSpace (c : Char) : Bool := c.toNat = 0x20 || (0x09 ≤ c.toNat && c.toNat ≤ 0x0d)

/-- Text without the blanks of ASCII around it. -/
def asciiTrimmed (s : List Char) : List Char := trimBy asciiSpace s

/-- The decimal number that a text is: zero where it is none, or one of more than 64 bits. -/
def toULong (s : List Char) : UInt64 :=
  let s := s.dropWhile asciiSpace
  let s := if s.head? = some '+' then s.tail else s
  let digits := s.takeWhile Char.isDigit
  let value := Nat.ofDigitChars 10 digits 0
  if digits ≠ [] ∧ value < 2 ^ 64 ∧ (s.drop digits.length).head?.all (· = '\x00') then
    .ofNat value
  else
    0

-----------------------------------------------------------------------------------------
-- Decimal digits
-----------------------------------------------------------------------------------------

/-- A number in decimal. -/
def decimal (n : Nat) : List Char := Nat.toDigits 10 n

theorem toNat_of_isDigit {c : Char} (digit : c.isDigit = true) : 48 ≤ c.toNat ∧ c.toNat ≤ 57 := by
  rw [Char.isDigit, Bool.and_eq_true, decide_eq_true_eq, decide_eq_true_eq] at digit
  exact digit

theorem isSpace_of_isDigit {c : Char} (digit : c.isDigit = true) : isSpace c = false := by
  have bounds := toNat_of_isDigit digit
  simp only [isSpace, Bool.or_eq_false_iff, Bool.and_eq_false_iff, decide_eq_false_iff_not]
  omega

theorem digitValue_of_isDigit {c : Char} (digit : c.isDigit = true)
    : digitValue c = some (c.toNat - '0'.toNat) := by
  have bounds := toNat_of_isDigit digit
  have script : (decimalZeros.find? fun first => first ≤ c.toNat && c.toNat < first + 10)
      = some 0x30 := by
    rw [decimalZeros, List.find?_cons_of_pos]
    simp only [Bool.and_eq_true, decide_eq_true_eq]
    omega
  rw [digitValue, script]
  rfl

/-- Reading digits up to something that is none gives the number they write, as far as 64 bits
hold it; by induction on the digits.
-/
theorem takeDigits_append {digits rest : List Char} (all : ∀ c ∈ digits, c.isDigit = true)
    (ends : ∀ c ∈ rest.head?, digitValue c = none) (v : Nat)
    : takeDigits digitValue 10 (.ofNat v) (digits ++ rest)
      = (.ofNat (Nat.ofDigitChars 10 digits v), digits.length, rest) := by
  induction digits generalizing v with
  | nil =>
      cases rest with
      | nil => rfl
      | cons c more =>
          rw [List.nil_append, takeDigits, ends c rfl]
          rfl
  | cons c digits ih =>
      have here := digitValue_of_isDigit (all c List.mem_cons_self)
      have value : (UInt64.ofNat v * 10 + UInt64.ofNat (c.toNat - '0'.toNat))
          = UInt64.ofNat (10 * v + (c.toNat - '0'.toNat)) := by
        rw [UInt64.ofNat_add, UInt64.ofNat_mul, UInt64.mul_comm]
        rfl
      rw [List.cons_append, takeDigits, here]
      dsimp only
      rw [value, ih fun d member => all d (List.mem_cons_of_mem c member), Nat.ofDigitChars_cons]
      rfl

theorem isDigit_decimal {n : Nat} {c : Char} (member : c ∈ decimal n) : c.isDigit = true :=
  Nat.isDigit_of_mem_toDigits (by decide) (by decide) member

theorem decimal_ne_nil (n : Nat) : decimal n ≠ [] := Nat.toDigits_ne_nil

theorem takeDigits_decimal (n : Nat) {rest : List Char}
    (ends : ∀ c ∈ rest.head?, digitValue c = none)
    : takeDigits digitValue 10 0 (decimal n ++ rest) = (.ofNat n, (decimal n).length, rest) := by
  have read := takeDigits_append (fun c member => isDigit_decimal (n := n) member) ends 0
  rw [decimal, Nat.ofDigitChars_ten_toDigits] at read
  exact read

/-- A number other than zero does not begin with a zero, by induction on its digits. -/
theorem head?_decimal {n : Nat} (positive : 0 < n) : (decimal n).head? ≠ some '0' := by
  induction n using Nat.strongRecOn with
  | ind n ih =>
      by_cases small : n < 10
      · rw [decimal, Nat.toDigits_of_lt_base small, List.head?_cons]
        intro same
        exact absurd (Nat.digitChar_eq_zero.mp (Option.some.inj same)) (by omega)
      · have shorter := ih (n / 10) (by omega) (by omega)
        rw [decimal, Nat.toDigits_of_base_le (by decide) (by omega),
          List.head?_append_of_ne_nil _ Nat.toDigits_ne_nil]
        exact shorter

-----------------------------------------------------------------------------------------
-- Numbers that were written
-----------------------------------------------------------------------------------------

/-- A decimal number before a blank tells its base. -/
theorem detectBase_decimal (n : Nat) (rest : List Char)
    : detectBase (decimal n ++ ' ' :: rest) = some (10, decimal n ++ ' ' :: rest) := by
  rcases Nat.eq_zero_or_pos n with rfl | positive
  · rfl
  · have first := head?_decimal positive
    have digits := fun c (member : c ∈ decimal n) => isDigit_decimal member
    cases written : decimal n with
    | nil => exact absurd written (decimal_ne_nil n)
    | cons c more =>
        rw [written] at first digits
        have other : c ≠ '0' := fun same => first (by rw [same]; rfl)
        have digit := digitValue_of_isDigit (digits c List.mem_cons_self)
        simp only [List.cons_append, detectBase, other, digit, if_false, Option.isSome_some, or_true,
          if_true]

theorem blank_head (rest : List Char) : ∀ c ∈ (' ' :: rest).head?, digitValue c = none := by
  intro c first
  obtain rfl : ' ' = c := Option.some.inj first
  decide

theorem decimalNumber_decimal (n : Nat) (rest : List Char)
    : decimalNumber (decimal n ++ ' ' :: rest) = (some (.ofNat n), ' ' :: rest) := by
  have read := takeDigits_decimal n (blank_head rest)
  have digits := fun c (member : c ∈ decimal n) => isDigit_decimal member
  have some_digits : (decimal n).length ≠ 0 :=
    fun none => decimal_ne_nil n (List.length_eq_zero_iff.mp none)
  cases written : decimal n with
  | nil => exact absurd written (decimal_ne_nil n)
  | cons c more =>
      rw [written] at read digits some_digits
      have digit := digits c List.mem_cons_self
      have unsigned : ¬ (c = '-' ∨ c = '+') := by
        rintro (rfl | rfl)
        · exact absurd digit (by decide)
        · exact absurd digit (by decide)
      simp only [List.cons_append] at read ⊢
      simp only [decimalNumber, unsigned, if_false, read, some_digits]

/-- A number that was written is read back behind blanks and before a blank. -/
theorem readNumber_decimal {blanks : List Char} (blank : ∀ c ∈ blanks, isSpace c = true)
    (n : Nat) (rest : List Char)
    : readNumber (blanks ++ (decimal n ++ ' ' :: rest)) = (.ofNat n, ' ' :: rest) := by
  have skipped : (blanks ++ (decimal n ++ ' ' :: rest)).dropWhile isSpace
      = decimal n ++ ' ' :: rest := by
    rw [List.dropWhile_append_of_pos blank]
    have digits := fun c (member : c ∈ decimal n) => isDigit_decimal member
    cases written : decimal n with
    | nil => exact absurd written (decimal_ne_nil n)
    | cons c more =>
        rw [written] at digits
        have stays := isSpace_of_isDigit (digits c List.mem_cons_self)
        rw [List.cons_append, List.dropWhile_cons_of_neg (by rw [stays]; exact Bool.false_ne_true)]
  rw [readNumber, getNumber, skipped, detectBase_decimal]
  dsimp only
  rw [if_pos rfl, decimalNumber_decimal]
  rfl

/-- A number in decimal, behind a minus sign below zero. -/
def decimalInt (i : Int) : List Char :=
  if i < 0 then '-' :: decimal i.natAbs else decimal i.natAbs

theorem mem_decimalInt {i : Int} {c : Char} (member : c ∈ decimalInt i)
    : c = '-' ∨ c.isDigit = true := by
  rw [decimalInt] at member
  split_ifs at member with negative
  · rcases List.mem_cons.mp member with sign | digit
    · exact .inl sign
    · exact .inr (isDigit_decimal digit)
  · exact .inr (isDigit_decimal member)

theorem decimal_inj {n k : Nat} (same : decimal n = decimal k) : n = k := by
  have value := congrArg (Nat.ofDigitChars 10 · 0) same
  simpa only [decimal, Nat.ofDigitChars_ten_toDigits] using value

/-- A number that was written ends where something else than a digit follows. -/
theorem decimal_append_inj {n k : Nat} {left right : List Char}
    (hl : ∀ c ∈ left.head?, c.isDigit = false) (hr : ∀ c ∈ right.head?, c.isDigit = false)
    (same : decimal n ++ left = decimal k ++ right)
    : n = k ∧ left = right := by
  have digits {i : Nat} {rest : List Char} (ends : ∀ c ∈ rest.head?, c.isDigit = false)
      : (decimal i ++ rest).takeWhile Char.isDigit = decimal i := by
    rw [List.takeWhile_append_of_pos fun c member => isDigit_decimal member]
    cases rest with
    | nil => exact List.append_nil _
    | cons c more => rw [List.takeWhile_cons_of_neg (by simp [ends c rfl]), List.append_nil]
  have numbers : n = k := decimal_inj (by rw [← digits hl, same, digits hr])
  subst numbers
  exact ⟨rfl, List.append_cancel_left same⟩

/-- Different numbers are written differently. -/
theorem decimalInt_inj {i j : Int} (same : decimalInt i = decimalInt j) : i = j := by
  have unsigned {n : Nat} {rest : List Char} : decimal n ≠ '-' :: rest := by
    intro signed
    have digit := isDigit_decimal (n := n) (signed ▸ List.mem_cons_self)
    exact absurd digit (by decide)
  simp only [decimalInt] at same
  split_ifs at same with left right right
  · have value := decimal_inj (List.cons.inj same).2
    omega
  · exact absurd same.symm unsigned
  · exact absurd same unsigned
  · have value := decimal_inj same
    omega

theorem ofInt_natAbs {i : Int} (positive : 0 ≤ i) : UInt64.ofInt i = .ofNat i.natAbs := by
  obtain ⟨n, rfl⟩ := Int.eq_ofNat_of_zero_le positive
  simp only [UInt64.ofInt, Int.natAbs_natCast]
  apply UInt64.toNat.inj
  simp only [UInt64.toNat_ofNat']
  omega

theorem negated_natAbs {i : Int} (negative : i < 0) (small : -2 ^ 63 < i)
    : negated (.ofNat i.natAbs) = .ofInt i := by
  have opposite : UInt64.ofInt i = - UInt64.ofNat i.natAbs := by
    have absolute := ofInt_natAbs (Int.natCast_nonneg i.natAbs)
    rw [Int.natAbs_natCast] at absolute
    rw [← absolute, ← UInt64.ofInt_neg]
    congr 1
    omega
  have value : (UInt64.ofNat i.natAbs).toNat = i.natAbs := by
    rw [UInt64.toNat_ofNat']
    omega
  have inside : 0 < UInt64.ofNat i.natAbs ∧ UInt64.ofNat i.natAbs < 0x8000000000000000 := by
    constructor
    · apply UInt64.lt_iff_toNat_lt.mpr
      rw [value]
      exact Int.natAbs_pos.mpr (by omega)
    · apply UInt64.lt_iff_toNat_lt.mpr
      rw [value]
      change i.natAbs < 9223372036854775808
      omega
  rw [negated, if_pos inside, opposite, UInt64.zero_sub]

/-- A signed number that was written is read back behind blanks and before a blank. -/
theorem readNumber_decimalInt {blanks : List Char} (blank : ∀ c ∈ blanks, isSpace c = true)
    {i : Int} (small : -2 ^ 63 < i) (rest : List Char)
    : readNumber (blanks ++ (decimalInt i ++ ' ' :: rest)) = (.ofInt i, ' ' :: rest) := by
  by_cases negative : i < 0
  · have digits := takeDigits_decimal i.natAbs (blank_head rest)
    have some_digits : (decimal i.natAbs).length ≠ 0 :=
      fun none => decimal_ne_nil _ (List.length_eq_zero_iff.mp none)
    rw [decimalInt, if_pos negative, List.cons_append, readNumber, getNumber,
      List.dropWhile_append_of_pos blank, List.dropWhile_cons_of_neg (by decide)]
    simp only [detectBase, decimalNumber, digits, some_digits, negated_natAbs negative small,
      true_or, if_true, if_false, Char.reduceEq, Option.getD_some]
  · rw [decimalInt, if_neg negative, readNumber_decimal blank,
      ofInt_natAbs (Int.not_lt.mp negative)]

-----------------------------------------------------------------------------------------
-- Lines that were written
-----------------------------------------------------------------------------------------

/-- Text up to the first of a character. -/
theorem takeWhile_line {stop : Char} {line : List Char} (ends : stop ∉ line) (rest : List Char)
    : (line ++ stop :: rest).takeWhile (· ≠ stop) = line
      ∧ (line ++ stop :: rest).dropWhile (· ≠ stop) = stop :: rest := by
  have before : ∀ c ∈ line, decide (c ≠ stop) = true := by
    intro c member
    exact decide_eq_true fun same => ends (same ▸ member)
  constructor
  · rw [List.takeWhile_append_of_pos before, List.takeWhile_cons_of_neg (by simp), List.append_nil]
  · rw [List.dropWhile_append_of_pos before, List.dropWhile_cons_of_neg (by simp)]

/-- Two fields before a separator that neither has are the same where their texts are. -/
theorem field_inj {stop : Char} {left right leftRest rightRest : List Char}
    (leftEnds : stop ∉ left) (rightEnds : stop ∉ right)
    (same : left ++ stop :: leftRest = right ++ stop :: rightRest)
    : left = right ∧ leftRest = rightRest := by
  obtain ⟨leftTaken, leftDropped⟩ := takeWhile_line leftEnds leftRest
  obtain ⟨rightTaken, rightDropped⟩ := takeWhile_line rightEnds rightRest
  rw [same] at leftTaken leftDropped
  exact ⟨leftTaken.symm.trans rightTaken, (List.cons.inj (leftDropped.symm.trans rightDropped)).2⟩

theorem trimBy_concat {p : Char → Bool} {c : Char} (blank : p c = true) (s : List Char)
    : trimBy p (s ++ [c]) = trimBy p s := by
  rw [trimBy, List.dropWhile_append]
  split_ifs with none
  · rw [trimBy, List.isEmpty_iff.mp none, List.dropWhile_cons_of_pos blank, List.dropWhile_nil]
  · rw [List.rdropWhile_concat_pos _ _ _ blank, trimBy]

theorem trimmed_blank (s : List Char) : trimmed (' ' :: s) = trimmed s := by
  rw [trimmed, trimBy, List.dropWhile_cons_of_pos (by decide), trimmed, trimBy]

/-- A line that was written is read back up to the blanks around it. -/
theorem trimmed_readLine {line : List Char} (ends : '\n' ∉ line) (rest : List Char)
    : trimmed (readLine (line ++ '\n' :: rest)).1 = trimmed line := by
  rw [readLine, (takeWhile_line ends rest).1]
  split_ifs with carriage
  · have whole := List.dropLast_append_getLast? '\r' (Option.mem_def.mpr carriage)
    calc trimmed line.dropLast = trimmed (line.dropLast ++ ['\r']) :=
          (trimBy_concat (by decide) _).symm
      _ = trimmed line := by rw [whole]
  · rfl

theorem readLine_rest {line : List Char} (ends : '\n' ∉ line) (rest : List Char)
    : (readLine (line ++ '\n' :: rest)).2 = rest := by
  rw [readLine, (takeWhile_line ends rest).2]
  rfl

theorem mem_readLine {s : List Char} {c : Char} (member : c ∈ (readLine s).1) : c ≠ '\n' := by
  have inLine : c ∈ s.takeWhile (· ≠ '\n') := by
    simp only [readLine] at member
    split at member
    · exact List.dropLast_subset _ member
    · exact member
  simpa using List.mem_takeWhile_imp inLine

theorem length_readLine (c : Char) (s : List Char) : (readLine (c :: s)).2.length ≤ s.length := by
  have shorter := (List.dropWhile_sublist (· ≠ '\n') (l := c :: s)).length_le
  simp only [readLine, List.length_drop, List.length_cons] at shorter ⊢
  omega

theorem trimBy_sublist (p : Char → Bool) (s : List Char) : (trimBy p s).Sublist s :=
  (List.rdropWhile_prefix p (s.dropWhile p)).sublist.trans (List.dropWhile_sublist p)

theorem mem_of_mem_trimBy {p : Char → Bool} {s : List Char} {c : Char} (member : c ∈ trimBy p s)
    : c ∈ s :=
  (trimBy_sublist p s).subset member

/-- Trimmed text begins with a character that stays. -/
theorem dropWhile_trimBy (p : Char → Bool) (s : List Char)
    : (trimBy p s).dropWhile p = trimBy p s := by
  cases text : trimBy p s with
  | nil => rfl
  | cons c rest =>
      have first : (s.dropWhile p).head? = some c := by
        obtain ⟨more, whole⟩ := List.rdropWhile_prefix p (s.dropWhile p)
        rw [← whole]
        change (trimBy p s ++ more).head? = some c
        rw [text]
        rfl
      have stays : p c = false := by
        have stop := List.head?_dropWhile_not p s
        rw [first] at stop
        exact stop
      rw [List.dropWhile_cons_of_neg (by rw [stays]; exact Bool.false_ne_true)]

/-- Trimmed text ends with a character that stays. -/
theorem rdropWhile_trimBy (p : Char → Bool) (s : List Char)
    : (trimBy p s).rdropWhile p = trimBy p s :=
  List.rdropWhile_idempotent p _

theorem trimBy_trimBy (p : Char → Bool) (s : List Char) : trimBy p (trimBy p s) = trimBy p s := by
  rw [trimBy, dropWhile_trimBy, rdropWhile_trimBy]

theorem dropWhile_congr {p q : Char → Bool} {s : List Char} (alike : ∀ c ∈ s, p c = q c)
    : s.dropWhile p = s.dropWhile q := by
  induction s with
  | nil => rfl
  | cons c rest ih =>
      rw [List.dropWhile_cons, List.dropWhile_cons, alike c List.mem_cons_self,
        ih fun d member => alike d (List.mem_cons_of_mem c member)]

/-- What trims the characters of a text alike trims the text alike. -/
theorem trimBy_congr {p q : Char → Bool} {s : List Char} (alike : ∀ c ∈ s, p c = q c)
    : trimBy p s = trimBy q s := by
  rw [trimBy, dropWhile_congr alike, trimBy, List.rdropWhile, List.rdropWhile,
    dropWhile_congr (p := p) (q := q)]
  intro c member
  exact alike c ((List.dropWhile_sublist q).subset (List.mem_reverse.mp member))

/-- Trimming the end stops at a character that stays, by induction from the end. -/
theorem rdropWhile_append_cons {p : Char → Bool} {c : Char} (stays : p c = false)
    (s rest : List Char)
    : (s ++ c :: rest).rdropWhile p = s ++ c :: rest.rdropWhile p := by
  induction rest using List.reverseRecOn with
  | nil =>
      rw [List.rdropWhile_nil]
      exact List.rdropWhile_concat_neg _ _ _ (by rw [stays]; exact Bool.false_ne_true)
  | append_singleton rest d ih =>
      have whole : s ++ c :: (rest ++ [d]) = (s ++ c :: rest) ++ [d] := by simp
      rw [whole, List.rdropWhile_concat, List.rdropWhile_concat]
      split_ifs
      · exact ih
      · simp

/-- The first line of a text, and the others. -/
theorem lines_append {line : List Char} (ends : '\n' ∉ line) (rest : List Char)
    : lines (line ++ '\n' :: rest) = (line ++ ['\n']) :: lines rest := by
  induction line with
  | nil => rfl
  | cons c line ih =>
      have other : c ≠ '\n' := fun same => ends (same ▸ List.mem_cons_self)
      rw [List.cons_append, lines, if_neg other,
        ih fun member => ends (List.mem_cons_of_mem c member)]
      rfl

/-- A line has no line break but at its end, by induction on the text. -/
theorem mem_lines {s line : List Char} (member : line ∈ lines s)
    : '\n' ∉ line ∨ ∃ text, line = text ++ ['\n'] ∧ '\n' ∉ text := by
  induction s generalizing line with
  | nil => cases member
  | cons c rest ih =>
      rw [lines] at member
      split_ifs at member with ends
      · rcases List.mem_cons.mp member with rfl | later
        · exact .inr ⟨[], by rw [ends]; rfl, List.not_mem_nil⟩
        · exact ih later
      · cases others : lines rest with
        | nil =>
            rw [others] at member
            obtain rfl := List.mem_singleton.mp member
            exact .inl fun here => ends (List.mem_singleton.mp here).symm
        | cons first more =>
            rw [others] at member
            rcases List.mem_cons.mp member with rfl | later
            · rcases ih (others ▸ List.mem_cons_self) with none | ⟨text, rfl, none⟩
              · left
                intro here
                rcases List.mem_cons.mp here with same | later
                · exact ends same.symm
                · exact none later
              · refine .inr ⟨c :: text, rfl, ?_⟩
                intro here
                rcases List.mem_cons.mp here with same | later
                · exact ends same.symm
                · exact none later
            · exact ih (others ▸ List.mem_cons_of_mem first later)

/-- The fields between separators have none, by induction on the text. -/
theorem not_mem_splitOn {stop : Char} {s field : List Char} (member : field ∈ s.splitOn stop)
    : stop ∉ field := by
  induction s generalizing field with
  | nil =>
      rw [List.mem_singleton.mp member]
      exact List.not_mem_nil
  | cons c rest ih =>
      rw [List.splitOn_cons_eq_if_modifyHead] at member
      by_cases here : c = stop
      · rw [if_pos (beq_iff_eq.mpr here)] at member
        rcases List.mem_cons.mp member with rfl | later
        · exact List.not_mem_nil
        · exact ih later
      · rw [if_neg (by simpa using here)] at member
        cases fields : rest.splitOn stop with
        | nil => exact absurd fields (List.splitOn_ne_nil _ _)
        | cons first more =>
            rw [fields, List.modifyHead_cons] at member
            rcases List.mem_cons.mp member with rfl | later
            · intro inside
              rcases List.mem_cons.mp inside with same | later
              · exact here same.symm
              · exact ih (fields ▸ List.mem_cons_self) later
            · exact ih (fields ▸ List.mem_cons_of_mem first later)

theorem asciiSpace_of_isDigit {c : Char} (digit : c.isDigit = true) : asciiSpace c = false := by
  have bounds := toNat_of_isDigit digit
  simp only [asciiSpace, Bool.or_eq_false_iff, Bool.and_eq_false_iff, decide_eq_false_iff_not]
  omega

/-- A number that was written is read back as a text of its own. -/
theorem toULong_decimal {n : Nat} (small : n < 2 ^ 64) : toULong (decimal n) = .ofNat n := by
  have digits := fun c (member : c ∈ decimal n) => isDigit_decimal member
  have value : Nat.ofDigitChars 10 (decimal n) 0 = n := Nat.ofDigitChars_ten_toDigits
  have all : (decimal n).takeWhile Char.isDigit = decimal n :=
    List.takeWhile_eq_self_iff.mpr digits
  have some_digits := decimal_ne_nil n
  generalize decimal n = text at *
  cases text with
  | nil => exact absurd rfl some_digits
  | cons c rest =>
      have digit := digits c List.mem_cons_self
      have unsigned : c ≠ '+' := by
        rintro rfl
        exact absurd digit (by decide)
      have stays : (c :: rest).dropWhile asciiSpace = c :: rest := by
        rw [List.dropWhile_cons_of_neg]
        rw [asciiSpace_of_isDigit digit]
        exact Bool.false_ne_true
      simp only [toULong, stays, List.head?_cons, Option.some_inj, unsigned, if_false, all, value]
      rw [if_pos]
      refine ⟨some_digits, small, ?_⟩
      rw [List.drop_length]
      rfl

end TextStream
