import Mathlib.Data.Nat.Basic

/-! Sixteen-bit serial numbers: numbers that count past their width and start over.
`ahead base number` is how far `number` lies ahead of `base` going round; indices of an
unbounded sequence are compared by it as long as they stay within one round.
-/

namespace Serial

/-- How many increments lead from `base` to `number`. -/
def ahead (base number : UInt16) : Nat := (number - base).toNat

/-- The serial number of a position in an unbounded sequence. -/
def ofIndex (index : Nat) : UInt16 := UInt16.ofNat index

theorem ahead_eq_mod (base number : UInt16)
    : ahead base number = (number.toNat + (65536 - base.toNat)) % 65536 := by
  rw [ahead, UInt16.toNat_sub, Nat.add_comm]

@[simp]
theorem ahead_self (base : UInt16) : ahead base base = 0 := by simp [ahead]

@[simp]
theorem ahead_zero (number : UInt16) : ahead 0 number = number.toNat := by simp [ahead]

/-- Nothing but the base itself is at distance zero. -/
theorem ahead_eq_zero_iff {base number : UInt16} : ahead base number = 0 ↔ number = base := by
  rw [ahead_eq_mod]
  have hb := base.toNat_lt
  have hn := number.toNat_lt
  constructor
  · intro h
    apply UInt16.toNat_inj.mp
    omega
  · rintro rfl
    omega

theorem ahead_pos {base number : UInt16} (ne : number ≠ base) : 0 < ahead base number :=
  Nat.pos_of_ne_zero (fun zero => ne (ahead_eq_zero_iff.mp zero))

/-- Moving the base on by one brings every other number one nearer. -/
theorem ahead_succ {base number : UInt16} (ne : number ≠ base)
    : ahead (base + 1) number + 1 = ahead base number := by
  have positive := ahead_pos ne
  rw [ahead_eq_mod] at positive ⊢
  rw [ahead_eq_mod, UInt16.toNat_add]
  have hb := base.toNat_lt
  have hn := number.toNat_lt
  simp only [UInt16.toNat_one] at *
  omega

/-- Numbers one after another, from one on. -/
def numbersFrom : UInt16 → Nat → List UInt16
  | _, 0 => []
  | start, count + 1 => start :: numbersFrom (start + 1) count

/-- A number is among them when it lies less far ahead, by induction on how many there are. -/
theorem mem_numbersFrom {start number : UInt16} {count : Nat}
    : number ∈ numbersFrom start count ↔ ahead start number < count := by
  induction count generalizing start with
  | zero => simp [numbersFrom]
  | succ count ih =>
      rw [numbersFrom, List.mem_cons, ih]
      by_cases same : number = start
      · simp [same]
      · have nearer := ahead_succ same
        rw [or_iff_right same]
        omega

/-- Once around, every number is met. -/
theorem mem_numbersFrom_round (start number : UInt16) : number ∈ numbersFrom start 65536 :=
  mem_numbersFrom.mpr (number - start).toNat_lt

/-- The numbers behind one do not come back to it within a round. -/
theorem notMem_numbersFrom_succ {start : UInt16} {count : Nat} (round : count < 65536)
    : start ∉ numbersFrom (start + 1) count := by
  rw [mem_numbersFrom, ahead_eq_mod, UInt16.toNat_add]
  have bound := start.toNat_lt
  simp only [UInt16.toNat_one]
  omega

theorem ofIndex_succ (index : Nat) : ofIndex index + 1 = ofIndex (index + 1) :=
  (UInt16.ofNat_add index 1).symm

/-- How far ahead one position of a sequence lies of another within a round. -/
theorem ahead_ofIndex {base index : Nat} (least : base ≤ index) (near : index < base + 65536)
    : ahead (ofIndex base) (ofIndex index) = index - base := by
  rw [ahead_eq_mod, ofIndex, ofIndex, UInt16.toNat_ofNat', UInt16.toNat_ofNat']
  omega

/-- Positions within a round of each other have different serial numbers. -/
theorem ofIndex_inj {base i j : Nat} (leastI : base ≤ i) (nearI : i < base + 65536)
    (leastJ : base ≤ j) (nearJ : j < base + 65536) (same : ofIndex i = ofIndex j)
    : i = j := by
  have distance := ahead_ofIndex leastI nearI
  rw [same, ahead_ofIndex leastJ nearJ] at distance
  omega

/-- The numbers from a position on are those of the positions behind it. -/
theorem numbersFrom_ofIndex (base count : Nat)
    : numbersFrom (ofIndex base) count = (List.range' base count).map ofIndex := by
  induction count generalizing base with
  | zero => rfl
  | succ count ih =>
      rw [numbersFrom, ofIndex_succ, ih, List.range'_succ, List.map_cons]

end Serial
