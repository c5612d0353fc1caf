import Scry.Filters.Filters

/-! The mark that a pattern gets behind every `Name:`, so that the `#` of a name is optional. -/

namespace Scry

namespace FilterItem

theorem markHashOptional_eq_nil {pattern : List Char}
    : markHashOptional pattern = [] ↔ pattern = [] := by
  constructor
  · intro none
    fun_cases markHashOptional pattern with
    | case1 n a m e colon rest named =>
        rw [markHashOptional, if_pos named] at none
        exact nomatch none
    | case2 n a m e colon rest other =>
        rw [markHashOptional, if_neg other] at none
        exact nomatch none
    | case3 c rest short =>
        rw [markHashOptional] at none
        · exact nomatch none
        · exact short
    | case4 => rfl
  · rintro rfl
    rfl

/-- A `Name:` stands in the pattern, however it is spelled. -/
def HasName (pattern : List Char) : Prop :=
  ∃ n, ((pattern.drop n).take 5).map Char.toLower = "name:".toList

theorem hasName_cons {c : Char} {rest : List Char}
    : HasName (c :: rest)
      ↔ ((c :: rest).take 5).map Char.toLower = "name:".toList ∨ HasName rest := by
  constructor
  · rintro ⟨n, here⟩
    cases n with
    | zero => exact .inl here
    | succ n => exact .inr ⟨n, here⟩
  · rintro (here | ⟨n, here⟩)
    · exact ⟨0, here⟩
    · exact ⟨n + 1, here⟩

/-- Marks make a pattern longer. -/
theorem length_le_markHashOptional (pattern : List Char)
    : pattern.length ≤ (markHashOptional pattern).length := by
  fun_induction markHashOptional pattern with
  | case1 n a m e colon rest named ih =>
      rw [List.length_append]
      simp only [List.length_cons]
      have : "Name:#?".toList.length = 7 := rfl
      omega
  | case2 n a m e colon rest other ih => simpa using ih
  | case3 c rest short ih => simpa using ih
  | case4 => exact Nat.le_refl _

/-- A pattern stays as it is exactly where no `Name:` stands in it. -/
theorem markHashOptional_eq_self {pattern : List Char}
    : markHashOptional pattern = pattern ↔ ¬ HasName pattern := by
  fun_induction markHashOptional pattern with
  | case1 n a m e colon rest named ih =>
      have longer := length_le_markHashOptional rest
      constructor
      · intro same
        have lengths := congrArg List.length same
        rw [List.length_append] at lengths
        have : "Name:#?".toList.length = 7 := rfl
        simp only [List.length_cons] at lengths
        omega
      · intro plain
        exact absurd ⟨0, by simpa using named⟩ plain
  | case2 n a m e colon rest other ih =>
      rw [hasName_cons, not_or, List.cons.injEq]
      simp only [true_and]
      rw [ih]
      exact (and_iff_right (by simpa using other)).symm
  | case3 c rest short ih =>
      have few : ((c :: rest).take 5).map Char.toLower ≠ "name:".toList := by
        intro same
        have lengths := congrArg List.length same
        rw [List.length_map, List.length_take] at lengths
        have : "name:".toList.length = 5 := rfl
        have long : 4 ≤ rest.length := by
          simp only [List.length_cons] at lengths
          omega
        rcases rest with _ | ⟨a, _ | ⟨m, _ | ⟨e, _ | ⟨colon, rest⟩⟩⟩⟩
        case cons.cons.cons.cons => exact short a m e colon rest rfl
        all_goals simp at long
      rw [hasName_cons, not_or, List.cons.injEq]
      simp only [true_and]
      rw [ih]
      exact (and_iff_right few).symm
  | case4 =>
      have : ¬ HasName [] := by
        rintro ⟨n, here⟩
        simp at here
      exact iff_of_true rfl this

/-- Where no `Name:` starts, the character stays. -/
theorem markHashOptional_cons {c : Char} {rest : List Char}
    (other : ((c :: rest).take 5).map Char.toLower ≠ "name:".toList)
    : markHashOptional (c :: rest) = c :: markHashOptional rest := by
  rcases rest with _ | ⟨a, _ | ⟨m, _ | ⟨e, _ | ⟨colon, rest⟩⟩⟩⟩
  case cons.cons.cons.cons =>
    rw [markHashOptional, if_neg (by simpa using other)]
  all_goals rfl

/-- No `Name:` runs over a semicolon. -/
theorem take_ne_name {front rest : List Char} (few : front.length < 5)
    : ((front ++ ';' :: rest).take 5).map Char.toLower ≠ "name:".toList := by
  intro same
  have inside : ';' ∈ ((front ++ ';' :: rest).take 5).map Char.toLower := by
    apply List.mem_map.mpr
    refine ⟨';', ?_, by decide⟩
    rw [List.take_append, List.take_of_length_le (by omega),
      show 5 - front.length = (4 - front.length) + 1 by omega, List.take_succ_cons]
    exact List.mem_append_right _ List.mem_cons_self
  rw [same] at inside
  exact absurd inside (by decide)

/-- What stands behind a semicolon is marked by itself. -/
theorem markHashOptional_append (front rest : List Char)
    : markHashOptional (front ++ ';' :: rest)
      = markHashOptional front ++ ';' :: markHashOptional rest := by
  fun_induction markHashOptional front with
  | case1 n a m e colon front named ih =>
      simp only [List.cons_append, markHashOptional, named, if_true, ih, List.append_assoc]
  | case2 n a m e colon front other ih =>
      simp only [List.cons_append] at ih
      simp only [List.cons_append, markHashOptional, other, if_false, ih]
  | case3 c front short ih =>
      have few : (c :: front).length < 5 := by
        by_contra long
        rcases front with _ | ⟨a, _ | ⟨m, _ | ⟨e, _ | ⟨colon, front⟩⟩⟩⟩
        case cons.cons.cons.cons => exact short a m e colon front rfl
        all_goals simp at long
      rw [List.cons_append, List.cons_append, ← ih]
      exact markHashOptional_cons (take_ne_name few)
  | case4 => exact markHashOptional_cons (take_ne_name (by decide : ([] : List Char).length < 5))

end FilterItem

end Scry
