import Mathlib.Data.List.Basic

/-! Text that is decoded from bytes, as Latin-1 or as UTF-8. A byte that begins no character of
UTF-8 becomes the replacement character.
-/

namespace Utf8

-----------------------------------------------------------------------------------------
-- Codecs
-----------------------------------------------------------------------------------------

def fromLatin1 (bytes : List UInt8) : List Char := bytes.map fun b => Char.ofNat b.toNat

def toLatin1 (text : List Char) : List UInt8 :=
  text.map fun c => if c.toNat < 0x100 then .ofNat c.toNat else 0x3f

/-- Whether a byte continues a character. -/
def continues (b : UInt8) : Bool := 0x80 ≤ b && b < 0xc0

/-- The six bits of a byte that continues a character. -/
def bits (b : UInt8) : Nat := b.toNat % 0x40

/-- The character of a value, unless it is written too long or is none. -/
def scalar (least value : Nat) : Option Char :=
  if least ≤ value ∧ value.isValidChar then some (Char.ofNat value) else none

/-- A character whose first byte gives it some bits and is continued by `more` bytes. -/
def decodeMore (least first more : Nat) (rest : List UInt8) : Option (Char × Nat) :=
  let tail := rest.take more
  if tail.length = more ∧ tail.all continues then
    (scalar least (tail.foldl (fun value b => value * 0x40 + bits b) first)).map (·, more)
  else
    none

/-- The character that begins with a byte, and how many more bytes it takes. -/
def decodeChar (b : UInt8) (rest : List UInt8) : Option (Char × Nat) :=
  if b < 0x80 then some (Char.ofNat b.toNat, 0)
  else if b < 0xc2 then none
  else if b < 0xe0 then decodeMore 0x80 (b.toNat % 0x20) 1 rest
  else if b < 0xf0 then decodeMore 0x800 (b.toNat % 0x10) 2 rest
  else if b < 0xf5 then decodeMore 0x10000 (b.toNat % 8) 3 rest
  else none

/-- The characters of bytes, behind the bytes that belong to the character before them. -/
def decode : Nat → List UInt8 → List Char
  | _, [] => []
  | skip + 1, _ :: rest => decode skip rest
  | 0, b :: rest =>
      match decodeChar b rest with
      | some (c, more) => c :: decode more rest
      | none => '\ufffd' :: decode 0 rest

/-- Text in UTF-8, without the mark of its byte order. -/
def fromUtf8 (bytes : List UInt8) : List Char :=
  decode 0 (if [0xef, 0xbb, 0xbf] <+: bytes then bytes.drop 3 else bytes)

/-- A byte that continues a character with the last six bits of a number. -/
def continuing (value : Nat) : UInt8 := .ofNat (0x80 + value % 0x40)

/-- The bytes of a character. -/
def encodeChar (c : Char) : List UInt8 :=
  let value := c.toNat
  if value < 0x80 then [.ofNat value]
  else if value < 0x800 then [.ofNat (0xc0 + value / 0x40), continuing value]
  else if value < 0x10000 then
    [.ofNat (0xe0 + value / 0x1000), continuing (value / 0x40), continuing value]
  else
    [.ofNat (0xf0 + value / 0x40000), continuing (value / 0x1000), continuing (value / 0x40),
      continuing value]

def toUtf8 (text : List Char) : List UInt8 := text.flatMap encodeChar

-----------------------------------------------------------------------------------------
-- What is decoded
-----------------------------------------------------------------------------------------

theorem toNat_ofByte (b : UInt8) : (Char.ofNat b.toNat).toNat = b.toNat := by
  have valid : b.toNat.isValidChar := .inl (Nat.lt_trans b.toNat_lt (by decide))
  rw [Char.ofNat, dif_pos valid]
  rfl

theorem decodeChar_ascii {b : UInt8} (ascii : b < 0x80) (rest : List UInt8)
    : decodeChar b rest = some (Char.ofNat b.toNat, 0) := if_pos ascii

theorem least_le_of_scalar {least value : Nat} {c : Char} (found : scalar least value = some c)
    : least ≤ c.toNat := by
  rw [scalar] at found
  split_ifs at found with valid
  obtain rfl := Option.some.inj found
  rw [Char.ofNat, dif_pos valid.2]
  exact valid.1

theorem decodeMore_some {least first more count : Nat} {rest : List UInt8} {c : Char}
    (found : decodeMore least first more rest = some (c, count))
    : least ≤ c.toNat ∧ count = more ∧ count ≤ rest.length := by
  simp only [decodeMore] at found
  split_ifs at found with complete
  obtain ⟨d, value, same⟩ := Option.map_eq_some_iff.mp found
  obtain ⟨rfl, rfl⟩ := Prod.mk.inj same
  have size := complete.1
  rw [List.length_take] at size
  exact ⟨least_le_of_scalar value, rfl, by omega⟩

/-- What is not a byte of ASCII begins a longer character or none. -/
theorem decodeChar_other {b : UInt8} (other : ¬ b < 0x80) {rest : List UInt8} {c : Char}
    {more : Nat} (found : decodeChar b rest = some (c, more))
    : 0x80 ≤ c.toNat ∧ 0 < more ∧ more ≤ rest.length := by
  rw [decodeChar, if_neg other] at found
  split_ifs at found
  · obtain ⟨least, count, size⟩ := decodeMore_some found
    exact ⟨least, by omega, size⟩
  · obtain ⟨least, count, size⟩ := decodeMore_some found
    exact ⟨by omega, by omega, size⟩
  · obtain ⟨least, count, size⟩ := decodeMore_some found
    exact ⟨by omega, by omega, size⟩

/-- There are no more characters than bytes, by induction on the bytes. -/
theorem length_decode (skip : Nat) (bytes : List UInt8)
    : (decode skip bytes).length ≤ bytes.length - skip := by
  induction bytes generalizing skip with
  | nil => simp [decode]
  | cons b rest ih =>
      cases skip with
      | succ skip =>
          rw [decode, List.length_cons, Nat.succ_sub_succ]
          exact ih skip
      | zero =>
          rw [decode]
          cases found : decodeChar b rest with
          | none =>
              have here := ih 0
              simp only [List.length_cons]
              omega
          | some decoded =>
              have here := ih decoded.2
              simp only [List.length_cons]
              omega

/-- Characters of ASCII are those of the bytes. -/
theorem mem_decode {skip : Nat} {bytes : List UInt8} {c : Char} (member : c ∈ decode skip bytes)
    (ascii : c.toNat < 0x80)
    : UInt8.ofNat c.toNat ∈ bytes := by
  induction bytes generalizing skip with
  | nil =>
      cases skip with
      | zero => cases member
      | succ skip => cases member
  | cons b rest ih =>
      cases skip with
      | succ skip =>
          rw [decode] at member
          exact List.mem_cons_of_mem b (ih member)
      | zero =>
          rw [decode] at member
          by_cases low : b < 0x80
          · rw [decodeChar_ascii low] at member
            rcases List.mem_cons.mp member with rfl | later
            · rw [toNat_ofByte, UInt8.ofNat_toNat]
              exact List.mem_cons_self
            · exact List.mem_cons_of_mem b (ih later)
          · cases found : decodeChar b rest with
            | none =>
                rw [found] at member
                rcases List.mem_cons.mp member with rfl | later
                · exact absurd ascii (by decide)
                · exact List.mem_cons_of_mem b (ih later)
            | some decoded =>
                rw [found] at member
                rcases List.mem_cons.mp member with rfl | later
                · exact absurd (decodeChar_other low found).1 (by omega)
                · exact List.mem_cons_of_mem b (ih later)

/-- Decoding changes nothing if and only if all bytes are of ASCII: another byte begins a
character of several bytes, or becomes one that Latin-1 does not have.
-/
theorem decode_eq_fromLatin1_iff {bytes : List UInt8}
    : decode 0 bytes = fromLatin1 bytes ↔ ∀ b ∈ bytes, b < 0x80 := by
  induction bytes with
  | nil => simp [decode, fromLatin1]
  | cons b rest ih =>
      rw [decode, List.forall_mem_cons]
      by_cases low : b < 0x80
      · rw [decodeChar_ascii low]
        simp only [fromLatin1, List.map_cons, List.cons.injEq, true_and, low]
        exact ih
      · refine iff_of_false ?_ fun both => low both.1
        intro same
        cases found : decodeChar b rest with
        | none =>
            rw [found] at same
            have first : '\ufffd' = Char.ofNat b.toNat := (List.cons.inj same).1
            have value := congrArg Char.toNat first
            rw [toNat_ofByte] at value
            have small := b.toNat_lt
            change 65533 = b.toNat at value
            omega
        | some decoded =>
            rw [found] at same
            have size := congrArg List.length same
            have shorter := length_decode decoded.2 rest
            have chars : decodeChar b rest = some (decoded.1, decoded.2) := found
            obtain ⟨_, more, enough⟩ := decodeChar_other low chars
            simp only [fromLatin1, List.length_cons, List.length_map] at size
            omega

theorem length_fromUtf8 (bytes : List UInt8) : (fromUtf8 bytes).length ≤ bytes.length := by
  rw [fromUtf8]
  split_ifs
  · have shorter := length_decode 0 (bytes.drop 3)
    rw [List.length_drop] at shorter
    omega
  · exact length_decode 0 bytes

theorem mem_fromUtf8 {bytes : List UInt8} {c : Char} (member : c ∈ fromUtf8 bytes)
    (ascii : c.toNat < 0x80)
    : UInt8.ofNat c.toNat ∈ bytes := by
  rw [fromUtf8] at member
  split_ifs at member
  · exact List.mem_of_mem_drop (mem_decode member ascii)
  · exact mem_decode member ascii

theorem fromUtf8_eq_fromLatin1_iff {bytes : List UInt8}
    : fromUtf8 bytes = fromLatin1 bytes ↔ ∀ b ∈ bytes, b < 0x80 := by
  rw [fromUtf8]
  split_ifs with marked
  · obtain ⟨rest, rfl⟩ := marked
    apply iff_of_false
    · intro same
      have size := congrArg List.length same
      have shorter := length_decode 0 rest
      simp [fromLatin1] at size
      omega
    · intro all
      exact absurd (all 0xef (by simp)) (by decide)
  · exact decode_eq_fromLatin1_iff

/-- Latin-1 gives the bytes back. -/
theorem toLatin1_fromLatin1 (bytes : List UInt8) : toLatin1 (fromLatin1 bytes) = bytes := by
  rw [toLatin1, fromLatin1, List.map_map]
  apply List.map_id''
  intro b
  simp [toNat_ofByte, Nat.lt_of_lt_of_eq b.toNat_lt]

-----------------------------------------------------------------------------------------
-- Round trips
-----------------------------------------------------------------------------------------

theorem decode_eq (skip : Nat) (bytes : List UInt8)
    : decode skip bytes = decode 0 (bytes.drop skip) := by
  induction bytes generalizing skip with
  | nil => cases skip <;> rfl
  | cons b rest ih =>
      cases skip with
      | zero => rfl
      | succ skip => exact ih skip

theorem scalar_toNat {least : Nat} {c : Char} (enough : least ≤ c.toNat)
    : scalar least c.toNat = some c := by
  rw [scalar, if_pos ⟨enough, c.valid⟩, Char.ofNat_toNat]

theorem toNat_continuing (value : Nat) : (continuing value).toNat = 0x80 + value % 0x40 := by
  rw [continuing, UInt8.toNat_ofNat']
  omega

@[simp]
theorem bits_continuing (value : Nat) : bits (continuing value) = value % 0x40 := by
  rw [bits, toNat_continuing]
  omega

@[simp]
theorem continues_continuing (value : Nat) : continues (continuing value) = true := by
  simp only [continues, Bool.and_eq_true, decide_eq_true_eq, UInt8.le_iff_toNat_le,
    UInt8.lt_iff_toNat_lt, toNat_continuing, UInt8.toNat_ofNat]
  omega

/-- A character is read from the bits of its first byte and the bytes that continue it. -/
theorem decodeMore_append {least first : Nat} (tail : List UInt8) {rest : List UInt8} {c : Char}
    (continued : tail.all continues = true)
    (value : tail.foldl (fun value b => value * 0x40 + bits b) first = c.toNat)
    (enough : least ≤ c.toNat)
    : decodeMore least first tail.length (tail ++ rest) = some (c, tail.length) := by
  simp only [decodeMore, List.take_left]
  rw [if_pos ⟨trivial, continued⟩, value, scalar_toNat enough]
  rfl

theorem decode_of_decodeChar {b : UInt8} (tail : List UInt8) {rest : List UInt8} {c : Char}
    (found : decodeChar b (tail ++ rest) = some (c, tail.length))
    : decode 0 (b :: tail ++ rest) = c :: decode 0 rest := by
  rw [List.cons_append, decode, found]
  dsimp only
  rw [decode_eq, List.drop_left]

/-- A character is decoded from its bytes, whatever is behind them. -/
theorem decode_encodeChar (c : Char) (rest : List UInt8)
    : decode 0 (encodeChar c ++ rest) = c :: decode 0 rest := by
  have valid : c.toNat < 0x110000 := by
    rcases c.valid with low | high
    · exact Nat.lt_trans low (by decide)
    · exact high.2
  rw [encodeChar]
  have lead (value : Nat) (small : value < 0x100) : (UInt8.ofNat value).toNat = value :=
    Nat.mod_eq_of_lt small
  split_ifs with one two three
  · refine decode_of_decodeChar [] ?_
    rw [decodeChar_ascii (by rw [UInt8.lt_iff_toNat_lt, lead _ (by omega)]; exact one),
      lead _ (by omega), Char.ofNat_toNat]
    rfl
  · refine decode_of_decodeChar _ ?_
    have first := lead (0xc0 + c.toNat / 0x40) (by omega)
    rw [decodeChar, if_neg, if_neg, if_pos, first]
    · refine decodeMore_append [continuing c.toNat] (by simp) ?_ (by omega)
      simp only [List.foldl_cons, List.foldl_nil, bits_continuing]
      omega
    all_goals
      rw [UInt8.lt_iff_toNat_lt, first]
      simp only [UInt8.toNat_ofNat]
      omega
  · refine decode_of_decodeChar _ ?_
    have first := lead (0xe0 + c.toNat / 0x1000) (by omega)
    rw [decodeChar, if_neg, if_neg, if_neg, if_pos, first]
    · refine decodeMore_append [continuing (c.toNat / 0x40), continuing c.toNat]
        (by simp) ?_ (by omega)
      simp only [List.foldl_cons, List.foldl_nil, bits_continuing]
      omega
    all_goals
      rw [UInt8.lt_iff_toNat_lt, first]
      simp only [UInt8.toNat_ofNat]
      omega
  · refine decode_of_decodeChar _ ?_
    have first := lead (0xf0 + c.toNat / 0x40000) (by omega)
    rw [decodeChar, if_neg, if_neg, if_neg, if_neg, if_pos, first]
    · refine decodeMore_append
        [continuing (c.toNat / 0x1000), continuing (c.toNat / 0x40), continuing c.toNat]
        (by simp) ?_ (by omega)
      simp only [List.foldl_cons, List.foldl_nil, bits_continuing]
      omega
    all_goals
      rw [UInt8.lt_iff_toNat_lt, first]
      simp only [UInt8.toNat_ofNat]
      omega

theorem decode_toUtf8 (text : List Char) : decode 0 (toUtf8 text) = text := by
  induction text with
  | nil => rfl
  | cons c text ih =>
      rw [toUtf8, List.flatMap_cons, decode_encodeChar]
      exact congrArg (c :: ·) ih

/-- A text without the mark of its byte order. -/
def withoutMark : List Char → List Char
  | '\ufeff' :: text => text
  | text => text

theorem withoutMark_suffix (text : List Char) : withoutMark text <:+ text := by
  unfold withoutMark
  split
  · exact List.suffix_cons _ _
  · exact List.suffix_refl _

/-- Text comes back from its bytes, except for a mark. -/
theorem fromUtf8_toUtf8 (text : List Char) : fromUtf8 (toUtf8 text) = withoutMark text := by
  have mark (rest : List UInt8) : decode 0 ([0xef, 0xbb, 0xbf] ++ rest) = '\ufeff' :: decode 0 rest :=
    decode_encodeChar '\ufeff' rest
  rw [fromUtf8]
  split_ifs with marked
  · obtain ⟨rest, whole⟩ := marked
    have same := decode_toUtf8 text
    rw [← whole, mark] at same
    rw [← whole, ← same]
    rfl
  · rw [decode_toUtf8, withoutMark]
    rintro rest rfl
    exact marked (List.prefix_append (encodeChar '\ufeff') (toUtf8 rest))

end Utf8
