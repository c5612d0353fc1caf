import Mathlib.Data.List.Basic
import Scry.Library.LittleEndian

/-! Reflected cyclic redundancy checks of any width and polynomial: the shift register that
message bits enter one at a time, the words that enter it at once, and the errors it detects.
-/

namespace ReflectedCrc

variable {w : Nat}

/-- One message bit enters the register, which moves down one place. -/
def step (polynomial register : BitVec w) (bit : Bool) : BitVec w :=
  if register.getLsbD 0 ^^ bit then polynomial ^^^ (register >>> 1) else register >>> 1

/-- A message enters the register, its first bit first. -/
def feed (polynomial register : BitVec w) (bits : List Bool) : BitVec w :=
  bits.foldl (step polynomial) register

/-- The `n` lowest bits of a word, the lowest first. -/
def lowBits (n : Nat) (word : BitVec w) : List Bool :=
  (List.range n).map word.getLsbD

/-- The bits of bytes in the order a reflected check reads them. -/
def message (bytes : List UInt8) : List Bool :=
  bytes.flatMap (fun byte => lowBits 8 byte.toBitVec)

/-- The check of bytes: the register they leave behind a start value, under a final mask. -/
def check (polynomial start mask : BitVec w) (bytes : List UInt8) : BitVec w :=
  feed polynomial start (message bytes) ^^^ mask

@[simp]
theorem feed_nil (polynomial register : BitVec w) : feed polynomial register [] = register := rfl

@[simp]
theorem feed_cons (polynomial register : BitVec w) (bit : Bool) (rest : List Bool)
    : feed polynomial register (bit :: rest)
      = feed polynomial (step polynomial register bit) rest :=
  rfl

@[simp]
theorem feed_append (polynomial register : BitVec w) (first rest : List Bool)
    : feed polynomial register (first ++ rest)
      = feed polynomial (feed polynomial register first) rest := by
  rw [feed, List.foldl_append, feed, feed]

@[simp]
theorem lowBits_zero (word : BitVec w) : lowBits 0 word = [] := rfl

/-- The bits of a word are those of its low part and those of the part moved down. -/
theorem lowBits_add (m n : Nat) (word : BitVec w)
    : lowBits (m + n) word = lowBits m word ++ lowBits n (word >>> m) := by
  have moved : (word >>> m).getLsbD = word.getLsbD ∘ (m + ·) := by
    funext i
    exact BitVec.getLsbD_ushiftRight word m i
  rw [lowBits, lowBits, lowBits, List.range_add, List.map_append, List.map_map, moved]

theorem lowBits_succ (n : Nat) (word : BitVec w)
    : lowBits (n + 1) word = word.getLsbD 0 :: lowBits n (word >>> 1) := by
  rw [Nat.add_comm, lowBits_add]
  rfl

/-- Words of any two widths that agree on their low bits spell the same message. -/
theorem lowBits_congr {v n : Nat} {x : BitVec v} {y : BitVec w}
    (agree : ∀ i < n, x.getLsbD i = y.getLsbD i)
    : lowBits n x = lowBits n y :=
  List.map_congr_left fun i member => agree i (List.mem_range.mp member)

@[simp]
theorem message_nil : message [] = [] := rfl

@[simp]
theorem message_cons (byte : UInt8) (rest : List UInt8)
    : message (byte :: rest) = lowBits 8 byte.toBitVec ++ message rest :=
  List.flatMap_cons

@[simp]
theorem message_append (first rest : List UInt8)
    : message (first ++ rest) = message first ++ message rest :=
  List.flatMap_append

/-- A word's little-endian bytes spell its bits, by induction on the number of bytes. -/
theorem message_encode (k : Nat) (word : BitVec w)
    : message (LittleEndian.encode k word.toNat) = lowBits (8 * k) word := by
  induction k generalizing word with
  | zero => rfl
  | succ k ih =>
      have low : lowBits 8 (UInt8.ofNat word.toNat).toBitVec = lowBits 8 word := by
        apply lowBits_congr
        intro i small
        rw [UInt8.toBitVec_ofNat', BitVec.getLsbD_ofNat, decide_eq_true small, Bool.true_and]
        rfl
      have upper : word.toNat / 256 = (word >>> 8).toNat := by
        rw [BitVec.toNat_ushiftRight, Nat.shiftRight_eq_div_pow]
      rw [LittleEndian.encode, message_cons, low, upper, ih, ← lowBits_add, Nat.mul_succ,
        Nat.add_comm]

-----------------------------------------------------------------------------------------
-- Words that enter at once
-----------------------------------------------------------------------------------------

/-- A word mixed into the register enters it with its lowest bit, and what is left of the
word moves down with the register.
-/
theorem step_xor (polynomial register word : BitVec w)
    : step polynomial (register ^^^ word) false
      = step polynomial register (word.getLsbD 0) ^^^ (word >>> 1) := by
  simp only [step, BitVec.getLsbD_xor, Bool.xor_false, BitVec.ushiftRight_xor_distrib]
  split
  · rw [BitVec.xor_assoc]
  · rfl

/-- Mixing a word into the register and moving down `n` places reads the word's `n` lowest
bits; the rest of the word stays mixed in, moved down. The induction is on the places.
-/
theorem feed_xor (polynomial : BitVec w) (n : Nat) (register word : BitVec w)
    : feed polynomial (register ^^^ word) (List.replicate n false)
      = feed polynomial register (lowBits n word) ^^^ (word >>> n) := by
  induction n generalizing register word with
  | zero => simp
  | succ n ih =>
      rw [List.replicate_succ, feed_cons, step_xor, ih, lowBits_succ, feed_cons,
        ← BitVec.shiftRight_add, Nat.add_comm 1 n]

/-- The word that moving an empty register's low bits out leaves behind. -/
theorem feed_replicate (polynomial : BitVec w) (n : Nat) (word : BitVec w)
    : feed polynomial word (List.replicate n false)
      = feed polynomial 0#w (lowBits n word) ^^^ (word >>> n) := by
  have mixed := feed_xor polynomial n 0#w word
  rwa [BitVec.zero_xor] at mixed

/-- Several bits of a word enter at once: what they leave behind mixed with the register's
low bits, and the register moved down.
-/
theorem feed_lowBits (polynomial register : BitVec w) (n : Nat) (word : BitVec w)
    : feed polynomial register (lowBits n word)
      = feed polynomial 0#w (lowBits n (register ^^^ word)) ^^^ (register >>> n) := by
  apply (BitVec.xor_left_inj (word >>> n)).mp
  calc feed polynomial register (lowBits n word) ^^^ (word >>> n)
      = feed polynomial (register ^^^ word) (List.replicate n false) :=
        (feed_xor polynomial n register word).symm
    _ = feed polynomial 0#w (lowBits n (register ^^^ word)) ^^^ ((register ^^^ word) >>> n) :=
        feed_replicate polynomial n _
    _ = _ := by rw [BitVec.ushiftRight_xor_distrib, BitVec.xor_assoc]

-----------------------------------------------------------------------------------------
-- Detected errors
-----------------------------------------------------------------------------------------

section Detection

variable {polynomial : BitVec w} (top : polynomial.msb = true)
include top

/-- A polynomial with its top bit set marks the registers it is mixed into, so a step shows
what it dropped.
-/
theorem step_eq {a b : BitVec w} {bit bit' : Bool}
    (same : step polynomial a bit = step polynomial b bit')
    : (a.getLsbD 0 ^^ bit) = (b.getLsbD 0 ^^ bit') ∧ a >>> 1 = b >>> 1 := by
  have topmost (register : BitVec w) : (register >>> 1).msb = false := by
    rw [BitVec.msb_ushiftRight]
    rfl
  have marked (register : BitVec w) (bit : Bool)
      : (step polynomial register bit).msb = (register.getLsbD 0 ^^ bit) := by
    unfold step
    split
    next on => rw [BitVec.msb_xor, topmost, top, on, Bool.xor_false]
    next off => rw [topmost, Bool.eq_false_of_not_eq_true off]
  have mixed : (a.getLsbD 0 ^^ bit) = (b.getLsbD 0 ^^ bit') := by
    rw [← marked a, same, marked b]
  refine ⟨mixed, ?_⟩
  unfold step at same
  rw [mixed] at same
  split at same
  · exact (BitVec.xor_right_inj polynomial).mp same
  · exact same

theorem step_injective (bit : Bool) : Function.Injective (step polynomial · bit) := by
  intro a b same
  obtain ⟨dropped, moved⟩ := step_eq top same
  rw [Bool.xor_left_inj] at dropped
  apply BitVec.eq_of_getLsbD_eq
  intro i _
  cases i with
  | zero => exact dropped
  | succ i =>
      have above := congrArg (BitVec.getLsbD · i) moved
      simpa only [BitVec.getLsbD_ushiftRight, Nat.add_comm] using above

theorem feed_injective (bits : List Bool) : Function.Injective (feed polynomial · bits) := by
  induction bits with
  | nil => exact fun _ _ same => same
  | cons bit rest ih => exact fun _ _ same => step_injective top bit (ih same)

/-- Two words that differ in their `n` lowest bits only leave different registers. -/
theorem feed_lowBits_injective {n : Nat} {x y : BitVec w} (register : BitVec w)
    (upper : x >>> n = y >>> n)
    (same : feed polynomial register (lowBits n x) = feed polynomial register (lowBits n y))
    : x = y := by
  have mixed : feed polynomial (register ^^^ x) (List.replicate n false)
      = feed polynomial (register ^^^ y) (List.replicate n false) := by
    rw [feed_xor, feed_xor, same, upper]
  exact (BitVec.xor_right_inj register).mp (feed_injective top _ mixed)

/-- No change of a single byte goes undetected. -/
theorem check_byte_injective (room : 8 ≤ w) (start mask : BitVec w) (before after : List UInt8)
    : Function.Injective (fun byte => check polynomial start mask (before ++ byte :: after)) := by
  intro a b same
  have spelled (byte : UInt8) : lowBits 8 byte.toBitVec = lowBits 8 (byte.toBitVec.setWidth w) := by
    apply lowBits_congr
    intro i small
    rw [BitVec.getLsbD_setWidth, decide_eq_true (small.trans_le room), Bool.true_and]
  have restored (byte : UInt8) : (byte.toBitVec.setWidth w).setWidth 8 = byte.toBitVec := by
    rw [BitVec.setWidth_setWidth_of_le _ room, BitVec.setWidth_eq]
  have upper (byte : UInt8) : byte.toBitVec.setWidth w >>> 8 = 0#w := by
    apply BitVec.eq_of_getLsbD_eq
    intro i _
    simp
  simp only [check, message_append, message_cons, feed_append, spelled] at same
  have words := feed_lowBits_injective top (feed polynomial start (message before))
    ((upper a).trans (upper b).symm)
    (feed_injective top (message after) ((BitVec.xor_left_inj mask).mp same))
  apply UInt8.toBitVec_inj.mp
  rw [← restored a, words, restored b]

end Detection

end ReflectedCrc
