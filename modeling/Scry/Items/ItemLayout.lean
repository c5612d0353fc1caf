import Scry.Backend.UnsizedReads
import Scry.Items.ItemPacket

/-! An item packet by its layout: a header, two names that end in a zero byte and the template.
The scans find the names where the layout has them, and whatever a packet holds, nothing behind
it is read.
-/

namespace Scry

open Binary Reading WireLive

namespace ItemReader

-----------------------------------------------------------------------------------------
-- The parser with what it reads
-----------------------------------------------------------------------------------------

/-- `fromLatin1` of the bytes between two offsets, the second of a zero byte. The size is an
`int`, and a negative one is measured again, up to the zero byte.
-/
def fromLatin1 (start stop : Nat) : Reading (List Char) := do
  let size := Int32.ofNat (stop - start)
  if size < 0 then
    let measured ← bytes start (stop - start + 1)
    return Utf8.fromLatin1 (measured.takeWhile (· ≠ 0))
  else
    let counted ← bytes start size.toInt.toNat
    return Utf8.fromLatin1 counted

/-- `parseItemPacket`; none is false. -/
def parseItemPacket (len : Nat) : Reading (Option ItemTemplate) :=
  if len < kHeaderProbeStart then return none
  else do
    let mark ← byte 20
    if mark ≠ 0 then return none
    else
      let packetType ← bytes 0 4
      let stackCount ← bytes 21 4
      let mainSlot ← bytes 25 4
      let subSlot ← bytes 29 2
      match ← WireLive.findNameStart len kHeaderProbeStart with
      | none => return none
      | some nameStart =>
          match ← WireLive.findNul len nameStart with
          | none => return none
          | some firstNul =>
              let loreStart := firstNul + 1
              match ← WireLive.findNul len loreStart with
              | none => return none
              | some secondNul =>
                  let postName := secondNul + 1
                  if postName + kParsedItemMinSize > len then return none
                  else
                    let itemName ← fromLatin1 nameStart firstNul
                    let loreName ← fromLatin1 loreStart secondNul
                    let p ← bytes postName kParsedItemMinSize
                    return some
                      (parsedItem
                        { packetType := readU32LE packetType
                          stackCount := readU32LE stackCount
                          mainSlot := readU32LE mainSlot
                          subSlot :=
                            (byteAt subSlot 0).toUInt16 ||| (byteAt subSlot 1).toUInt16 <<< 8
                          itemName
                          loreName }
                        p)

variable {m : Buffer}

-----------------------------------------------------------------------------------------
-- Bounds
-----------------------------------------------------------------------------------------

theorem within_fromLatin1 {start stop : Nat} (forward : start ≤ stop) (inside : stop < m.length)
    : (fromLatin1 start stop).Within m := by
  rw [fromLatin1]
  split_ifs with negative
  · simp only [within_bind, within_bytes, within_pure, and_true]
    omega
  · have small : (Int32.ofNat (stop - start)).toInt ≤ ((stop - start : Nat) : Int) := by
      rw [Int32.toInt_ofNat', Int32.size, Int.bmod_def]
      split_ifs <;> omega
    simp only [within_bind, within_bytes, within_pure, and_true]
    omega

/-- Whatever a packet holds, the parser reads inside it. -/
theorem within_parseItemPacket : (parseItemPacket m.length).Within m := by
  rw [parseItemPacket]
  split_ifs with short
  · exact within_pure _ m
  · have enough : 64 ≤ m.length := Nat.not_lt.mp short
    refine within_bind.mpr ⟨within_byte.mpr (by omega), ?_⟩
    split_ifs
    · exact within_pure _ m
    refine within_bind.mpr ⟨within_bytes.mpr (by omega), ?_⟩
    refine within_bind.mpr ⟨within_bytes.mpr (by omega), ?_⟩
    refine within_bind.mpr ⟨within_bytes.mpr (by omega), ?_⟩
    refine within_bind.mpr ⟨within_bytes.mpr (by omega), ?_⟩
    obtain ⟨scanned, started⟩ := findNameStart_inside (m := m) kHeaderProbeStart
    refine within_bind.mpr ⟨scanned, ?_⟩
    split
    · exact within_pure _ m
    · next nameStart at_name =>
        obtain ⟨scanned, ended⟩ := findNul_inside (m := m) nameStart
        refine within_bind.mpr ⟨scanned, ?_⟩
        split
        · exact within_pure _ m
        · next firstNul at_first =>
            obtain ⟨behindName, firstInside⟩ := ended firstNul at_first
            obtain ⟨scanned, ended⟩ := findNul_inside (m := m) (firstNul + 1)
            refine within_bind.mpr ⟨scanned, ?_⟩
            split
            · exact within_pure _ m
            · next secondNul at_second =>
                obtain ⟨behindLore, secondInside⟩ := ended secondNul at_second
                dsimp only
                split_ifs with room
                · exact within_pure _ m
                · simp only [kParsedItemMinSize] at room
                  refine within_bind.mpr ⟨within_fromLatin1 behindName firstInside, ?_⟩
                  refine within_bind.mpr ⟨within_fromLatin1 behindLore secondInside, ?_⟩
                  refine within_bind.mpr ⟨within_bytes.mpr ?_, within_pure _ m⟩
                  simp only [kParsedItemMinSize]
                  omega

-----------------------------------------------------------------------------------------
-- The delimiters
-----------------------------------------------------------------------------------------

/-- Where a name can start: a capital letter behind a zero byte. -/
def StartsName (data : Bytes) (i : Nat) : Prop :=
  0x41 ≤ byteAt data i ∧ byteAt data i ≤ 0x5a ∧ byteAt data (i - 1) = 0

/-- A packet with the three delimiters in it, and room for the template behind them. -/
def Delimited (data : Bytes) : Prop :=
  ∃ nameStart firstNul secondNul, kHeaderProbeStart ≤ nameStart ∧ StartsName data nameStart
    ∧ nameStart ≤ firstNul ∧ byteAt data firstNul = 0
    ∧ firstNul < secondNul ∧ byteAt data secondNul = 0
    ∧ secondNul + 1 + kParsedItemMinSize ≤ data.length

theorem findNul_eq_some {data : Bytes} {start i : Nat}
    : Scry.findNul data start = some i
      ↔ (start ≤ i ∧ i < data.length) ∧ byteAt data i = 0
        ∧ ∀ j, start ≤ j → j < i → byteAt data j ≠ 0 := by
  rw [Scry.findNul, List.find?_range'_eq_some]
  simp only [beq_iff_eq, List.mem_range'_1, Bool.not_eq_true', beq_eq_false_iff_ne]
  constructor
  · rintro ⟨zero, range, before⟩
    exact ⟨by omega, zero, before⟩
  · rintro ⟨range, zero, before⟩
    exact ⟨zero, by omega, before⟩

theorem findNameStart_eq_some {data : Bytes} {start i : Nat} (positive : 0 < start)
    : Scry.findNameStart data start = some i
      ↔ (start ≤ i ∧ i + 1 < data.length) ∧ StartsName data i
        ∧ ∀ j, start ≤ j → j < i → ¬ StartsName data j := by
  have capital (j : Nat) (above : start ≤ j)
      : (decide (0x41 ≤ byteAt data j) && decide (byteAt data j ≤ 0x5a) && decide (0 < j)
          && byteAt data (j - 1) == 0) = true ↔ StartsName data j := by
    have behind : 0 < j := by omega
    simp only [Bool.and_eq_true, decide_eq_true_eq, beq_iff_eq, behind, and_true, StartsName,
      and_assoc]
  rw [Scry.findNameStart, List.find?_range'_eq_some, List.mem_range'_1]
  constructor
  · rintro ⟨here, range, before⟩
    refine ⟨by omega, (capital i range.1).mp here, fun j above below starts => ?_⟩
    have passed := before j above below
    rw [(capital j above).mpr starts] at passed
    exact Bool.noConfusion passed
  · rintro ⟨range, here, before⟩
    refine ⟨(capital i range.1).mpr here, by omega, fun j above below => ?_⟩
    rw [Bool.not_eq_true', Bool.eq_false_iff]
    exact fun starts => before j above below ((capital j above).mp starts)

/-- A scan finds nothing behind a zero byte. -/
theorem findNul_isSome {data : Bytes} {start i : Nat} (above : start ≤ i) (inside : i < data.length)
    (zero : byteAt data i = 0)
    : ∃ j, Scry.findNul data start = some j ∧ j ≤ i := by
  have here : i ∈ List.range' start (data.length - start) := by
    rw [List.mem_range'_1]
    omega
  cases found : Scry.findNul data start with
  | none =>
      rw [Scry.findNul, List.find?_eq_none] at found
      exact absurd (beq_iff_eq.mpr zero) (found i here)
  | some j =>
      obtain ⟨-, -, before⟩ := findNul_eq_some.mp found
      exact ⟨j, rfl, Nat.not_lt.mp fun later => before i above later zero⟩

theorem findNameStart_isSome (data : Bytes) {start i : Nat} (positive : 0 < start)
    (above : start ≤ i) (inside : i + 1 < data.length) (starts : StartsName data i)
    : ∃ j, Scry.findNameStart data start = some j ∧ j ≤ i := by
  cases found : Scry.findNameStart data start with
  | none =>
      have here : i ∈ List.range' start (data.length - 1 - start) := by
        rw [List.mem_range'_1]
        omega
      rw [Scry.findNameStart, List.find?_eq_none] at found
      obtain ⟨low, high, before⟩ := starts
      have behind : 0 < i := by omega
      exact absurd (by simp [low, high, before, behind]) (found i here)
  | some j =>
      obtain ⟨-, -, before⟩ := (findNameStart_eq_some positive).mp found
      exact ⟨j, rfl, Nat.not_lt.mp fun later => before i above later starts⟩

-----------------------------------------------------------------------------------------
-- What is parsed
-----------------------------------------------------------------------------------------

/-- The item that is read with the names at some offsets. -/
def itemAt (m : Buffer) (nameStart firstNul secondNul : Nat) : ItemTemplate :=
  parsedItem
    { packetType := readU32LE (m.slice 0 4)
      stackCount := readU32LE (m.slice 21 4)
      mainSlot := readU32LE (m.slice 25 4)
      subSlot :=
        (byteAt (m.slice 29 2) 0).toUInt16 ||| (byteAt (m.slice 29 2) 1).toUInt16 <<< 8
      itemName := (fromLatin1 nameStart firstNul).value m
      loreName := (fromLatin1 (firstNul + 1) secondNul).value m }
    (m.slice (secondNul + 1) kParsedItemMinSize)

/-- An item is returned exactly where the three scans find something and the template fits. -/
theorem value_parseItemPacket_eq_some {item : ItemTemplate}
    : (parseItemPacket m.length).value m = some item
      ↔ kHeaderProbeStart ≤ m.length ∧ byteAt m.bytes 20 = 0
        ∧ ∃ nameStart, Scry.findNameStart m.bytes kHeaderProbeStart = some nameStart
        ∧ ∃ firstNul, Scry.findNul m.bytes nameStart = some firstNul
        ∧ ∃ secondNul, Scry.findNul m.bytes (firstNul + 1) = some secondNul
          ∧ secondNul + 1 + kParsedItemMinSize ≤ m.length
          ∧ itemAt m nameStart firstNul secondNul = item := by
  rw [parseItemPacket]
  by_cases short : m.length < kHeaderProbeStart
  · rw [if_pos short, value_pure]
    exact iff_of_false nofun fun both => absurd short (Nat.not_lt.mpr both.1)
  · have enough : kHeaderProbeStart ≤ m.length := Nat.not_lt.mp short
    have twenty : 20 < m.length := Nat.lt_of_lt_of_le (by decide) enough
    rw [if_neg short, and_iff_right enough, value_bind, value_byte twenty]
    by_cases marked : byteAt m.bytes 20 = 0
    · rw [if_neg (fun other => other marked), and_iff_right marked]
      rw [value_bind, value_bind, value_bind, value_bind, value_bind, value_findNameStart]
      cases Scry.findNameStart m.bytes kHeaderProbeStart with
      | none =>
          rw [value_pure]
          exact iff_of_false nofun nofun
      | some nameStart =>
          simp only [Option.some.injEq, exists_eq_left']
          rw [value_bind, value_findNul]
          cases Scry.findNul m.bytes nameStart with
          | none =>
              rw [value_pure]
              exact iff_of_false nofun nofun
          | some firstNul =>
              simp only [Option.some.injEq, exists_eq_left']
              rw [value_bind, value_findNul]
              cases Scry.findNul m.bytes (firstNul + 1) with
              | none =>
                  rw [value_pure]
                  exact iff_of_false nofun nofun
              | some secondNul =>
                  simp only [Option.some.injEq, exists_eq_left']
                  by_cases room : secondNul + 1 + kParsedItemMinSize > m.length
                  · rw [if_pos room, value_pure]
                    exact iff_of_false nofun fun both => absurd room (Nat.not_lt.mpr both.1)
                  · rw [if_neg room, and_iff_right (Nat.not_lt.mp room)]
                    rw [value_bind, value_bind, value_bind, value_pure, Option.some.injEq, itemAt]
                    simp only [value_bytes]
    · rw [if_pos marked, value_pure]
      exact iff_of_false nofun fun both => marked both.1

/-- Without its delimiters, in whatever way, a packet is refused. -/
theorem value_parseItemPacket_isSome_iff
    : ((parseItemPacket m.length).value m).isSome = true
      ↔ kHeaderProbeStart ≤ m.length ∧ byteAt m.bytes 20 = 0 ∧ Delimited m.bytes := by
  rw [Option.isSome_iff_exists]
  simp only [value_parseItemPacket_eq_some, exists_and_left]
  refine and_congr_right fun enough => and_congr_right fun _ => ?_
  have sized : m.bytes.length = m.length := rfl
  constructor
  · rintro ⟨_, nameStart, started, firstNul, first, secondNul, second, room, -⟩
    obtain ⟨⟨probed, _⟩, starts, -⟩ := (findNameStart_eq_some (by decide)).mp started
    obtain ⟨⟨behindName, _⟩, firstZero, -⟩ := findNul_eq_some.mp first
    obtain ⟨⟨behindLore, _⟩, secondZero, -⟩ := findNul_eq_some.mp second
    exact ⟨nameStart, firstNul, secondNul, probed, starts, behindName, firstZero, behindLore,
      secondZero, room⟩
  · rintro ⟨nameStart, firstNul, secondNul, probed, starts, behindName, firstZero, behindLore,
      secondZero, room⟩
    obtain ⟨name, started, name_le⟩ := findNameStart_isSome m.bytes (by decide) probed
      (by omega) starts
    obtain ⟨first, ended, first_le⟩ := findNul_isSome (Nat.le_trans name_le behindName) (by omega)
      firstZero
    obtain ⟨second, closed, second_le⟩ := findNul_isSome
      (Nat.le_trans (Nat.succ_le_succ first_le) behindLore) (by omega) secondZero
    exact ⟨_, name, started, first, ended, second, closed, by omega, rfl⟩

-----------------------------------------------------------------------------------------
-- Little-endian fields
-----------------------------------------------------------------------------------------

/-- The number in some bytes from an offset on. -/
def field (data : Bytes) (offset count : Nat) : Nat :=
  LittleEndian.decode ((data.drop offset).take count)

/-- Bits that are shifted behind a number are added to it. -/
theorem or_shift {low high k : Nat} (small : low < 2 ^ k)
    : low ||| high <<< k = low + 2 ^ k * high := by
  rw [Nat.or_comm, ← Nat.shiftLeft_add_eq_or_of_lt small, Nat.shiftLeft_eq, Nat.mul_comm,
    Nat.add_comm]

theorem toNat_shift {b : UInt8} {k : UInt32} (fits : k.toNat ≤ 24)
    : (b.toUInt32 <<< k).toNat = b.toNat <<< k.toNat := by
  have upper := b.toNat_lt
  have most : 2 ^ k.toNat ≤ 2 ^ 24 := Nat.pow_le_pow_right (by decide) fits
  rw [UInt32.toNat_shiftLeft, UInt8.toNat_toUInt32, Nat.mod_eq_of_lt (Nat.lt_of_le_of_lt fits
    (by decide)), Nat.shiftLeft_eq]
  apply Nat.mod_eq_of_lt
  calc b.toNat * 2 ^ k.toNat ≤ b.toNat * 2 ^ 24 := Nat.mul_le_mul_left _ most
    _ < 2 ^ 32 := by omega

/-- `readU32LE` spells the number of the first four bytes. -/
theorem readU32LE_eq {p : Bytes} (enough : 4 ≤ p.length)
    : readU32LE p = .ofNat (LittleEndian.decode (p.take 4)) := by
  match p, enough with
  | a :: b :: c :: d :: rest, _ =>
      have ha := a.toNat_lt
      have hb := b.toNat_lt
      have hc := c.toNat_lt
      have hd := d.toNat_lt
      have spelled : LittleEndian.decode [a, b, c, d]
          = a.toNat + 2 ^ 8 * b.toNat + 2 ^ 16 * c.toNat + 2 ^ 24 * d.toNat := by
        simp only [LittleEndian.decode]
        omega
      change a.toUInt32 ||| b.toUInt32 <<< 8 ||| c.toUInt32 <<< 16 ||| d.toUInt32 <<< 24
        = .ofNat (LittleEndian.decode [a, b, c, d])
      apply UInt32.toNat_inj.mp
      rw [UInt32.toNat_or, UInt32.toNat_or, UInt32.toNat_or, toNat_shift (by decide),
        toNat_shift (by decide), toNat_shift (by decide), UInt8.toNat_toUInt32,
        or_shift (k := (8 : UInt32).toNat) ha, or_shift (k := (16 : UInt32).toNat) _,
        or_shift (k := (24 : UInt32).toNat) _, spelled, UInt32.toNat_ofNat']
      all_goals simp only [UInt32.reduceToNat]
      all_goals omega

theorem readU16LE_eq {p : Bytes} (enough : 2 ≤ p.length)
    : (byteAt p 0).toUInt16 ||| (byteAt p 1).toUInt16 <<< 8
      = .ofNat (LittleEndian.decode (p.take 2)) := by
  match p, enough with
  | a :: b :: rest, _ =>
      have ha := a.toNat_lt
      have hb := b.toNat_lt
      change a.toUInt16 ||| b.toUInt16 <<< 8 = .ofNat (a.toNat + 256 * (b.toNat + 256 * 0))
      apply UInt16.toNat_inj.mp
      have shifted : (b.toUInt16 <<< 8).toNat = b.toNat <<< 8 := by
        rw [UInt16.toNat_shiftLeft, UInt8.toNat_toUInt16]
        change b.toNat <<< 8 % 2 ^ 16 = _
        rw [Nat.shiftLeft_eq]
        omega
      rw [UInt16.toNat_or, shifted, UInt8.toNat_toUInt16, or_shift ha, UInt16.toNat_ofNat']
      omega

-----------------------------------------------------------------------------------------
-- The layout
-----------------------------------------------------------------------------------------

/-- The parts of an item packet. The size of a packet is a 32-bit number. -/
structure ItemLayout where
  header : Bytes
  name : Bytes
  lore : Bytes
  body : Bytes
  probed : kHeaderProbeStart ≤ header.length
  marked : byteAt header 20 = 0
  ended : byteAt header (header.length - 1) = 0
  unnamed : ∀ i, kHeaderProbeStart ≤ i → i < header.length → ¬ StartsName header i
  capital : 0x41 ≤ byteAt name 0 ∧ byteAt name 0 ≤ 0x5a
  nameEnds : 0 ∉ name
  loreEnds : 0 ∉ lore
  template : kParsedItemMinSize ≤ body.length
  sized : header.length + name.length + 1 + lore.length + 1 + body.length < 2 ^ 32

example : ItemLayout where
  header := List.replicate 64 0
  name := [0x41]
  lore := []
  body := List.replicate 63 0
  probed := by decide
  marked := by decide
  ended := by decide
  unnamed _ above below := absurd below (Nat.not_lt.mpr above)
  capital := by decide
  nameEnds := by decide
  loreEnds := by decide
  template := by decide
  sized := by decide

namespace ItemLayout

/-- The packet. -/
def bytes (l : ItemLayout) : Bytes := l.header ++ (l.name ++ 0 :: (l.lore ++ 0 :: l.body))

/-- What an item has of a layout. -/
structure Describes (l : ItemLayout) (item : ItemTemplate) : Prop where
  packetType : item.packetType = .ofNat (field l.header 0 4)
  stackCount : item.stackCount = .ofNat (field l.header 21 4)
  mainSlot : item.mainSlot = .ofNat (field l.header 25 4)
  subSlot : item.subSlot = .ofNat (field l.header 29 2)
  itemName : item.itemName = Utf8.fromLatin1 l.name
  loreName : item.loreName = Utf8.fromLatin1 l.lore
  itemId : item.itemId = .ofNat (field l.body 8 4)
  weight
    : item.weight
      = .nearest ((.nearest (UInt32.ofNat (field l.body 12 4)).toNat : Single).value / 10)
  flags : item.flags = .ofNat (field l.body 16 4)
  slotBitmask : item.slotBitmask = .ofNat (field l.body 20 4)
  resists : ∀ i, item.resists i = (byteAt l.body (34 + i)).toInt8
  corruption : item.corruption = (byteAt l.body 39).toInt8
  stats : ∀ i, item.stats i = (byteAt l.body (40 + i)).toInt8
  hp : item.hp = (UInt32.ofNat (field l.body 47 4)).toInt32
  mana : item.mana = (UInt32.ofNat (field l.body 51 4)).toInt32
  endurance : item.endurance = (UInt32.ofNat (field l.body 55 4)).toInt32
  ac : item.ac = (UInt32.ofNat (field l.body 59 4)).toInt32

variable (l : ItemLayout)

theorem length_bytes
    : l.bytes.length
      = l.header.length + l.name.length + 1 + l.lore.length + 1 + l.body.length := by
  simp only [bytes, List.length_append, List.length_cons]
  omega

/-- A byte of the header. -/
theorem byteAt_header {i : Nat} (inside : i < l.header.length)
    : byteAt l.bytes i = byteAt l.header i := by
  rw [byteAt, byteAt, List.getD_eq_getElem?_getD, List.getD_eq_getElem?_getD, bytes,
    List.getElem?_append_left inside]

/-- A byte behind the header. -/
theorem byteAt_behind (i : Nat)
    : byteAt l.bytes (l.header.length + i) = byteAt (l.name ++ 0 :: (l.lore ++ 0 :: l.body)) i := by
  rw [byteAt, byteAt, List.getD_eq_getElem?_getD, List.getD_eq_getElem?_getD, bytes,
    List.getElem?_append_right (by omega), Nat.add_sub_cancel_left]

/-- A text without a zero byte, and the one behind it. -/
theorem byteAt_text (rest : Bytes) {text : Bytes} (ends : 0 ∉ text)
    : byteAt (text ++ 0 :: rest) text.length = 0
      ∧ ∀ i, i < text.length → byteAt (text ++ 0 :: rest) i ≠ 0 := by
  constructor
  · simp [byteAt]
  · intro i inside zero
    rw [byteAt, List.getD_eq_getElem?_getD, List.getElem?_append_left inside,
      List.getElem?_eq_getElem inside, Option.getD_some] at zero
    exact ends (zero ▸ List.getElem_mem inside)

theorem name_positive : 0 < l.name.length := by
  have capital := l.capital.1
  cases named : l.name with
  | nil => rw [named] at capital; exact absurd capital (by decide)
  | cons first rest => exact Nat.succ_pos _

/-- The name is found behind the header. -/
theorem findNameStart_bytes
    : Scry.findNameStart l.bytes kHeaderProbeStart = some l.header.length := by
  have probed := l.probed
  have positive := l.name_positive
  have probe : kHeaderProbeStart = 64 := rfl
  have length := l.length_bytes
  refine (findNameStart_eq_some (by decide)).mpr ⟨⟨probed, by omega⟩, ?_, ?_⟩
  · have first : byteAt l.bytes l.header.length = byteAt l.name 0 := by
      have behind := l.byteAt_behind 0
      rw [Nat.add_zero] at behind
      rw [behind, byteAt, byteAt, List.getD_eq_getElem?_getD, List.getD_eq_getElem?_getD,
        List.getElem?_append_left positive]
    refine ⟨first ▸ l.capital.1, first ▸ l.capital.2, ?_⟩
    rw [l.byteAt_header (by omega)]
    exact l.ended
  · intro j above below starts
    refine l.unnamed j above below ?_
    rwa [StartsName, l.byteAt_header below, l.byteAt_header (by omega)] at starts

/-- The name ends at its zero byte. -/
theorem findNul_name
    : Scry.findNul l.bytes l.header.length = some (l.header.length + l.name.length) := by
  have length := l.length_bytes
  obtain ⟨zero, before⟩ := byteAt_text (l.lore ++ 0 :: l.body) l.nameEnds
  refine findNul_eq_some.mpr ⟨⟨by omega, by omega⟩, ?_, ?_⟩
  · rw [l.byteAt_behind, zero]
  · intro j above below
    obtain ⟨i, rfl⟩ := Nat.exists_eq_add_of_le above
    rw [l.byteAt_behind]
    exact before i (by omega)

theorem byteAt_lore (i : Nat)
    : byteAt l.bytes (l.header.length + l.name.length + 1 + i)
      = byteAt (l.lore ++ 0 :: l.body) i := by
  have place : l.header.length + l.name.length + 1 + i = l.header.length + (l.name.length + (i + 1)) := by
    omega
  rw [place, l.byteAt_behind, byteAt, byteAt, List.getD_eq_getElem?_getD,
    List.getD_eq_getElem?_getD, List.getElem?_append_right (by omega), Nat.add_sub_cancel_left,
    List.getElem?_cons_succ]

/-- So does the lore name. -/
theorem findNul_lore
    : Scry.findNul l.bytes (l.header.length + l.name.length + 1)
      = some (l.header.length + l.name.length + 1 + l.lore.length) := by
  have length := l.length_bytes
  obtain ⟨zero, before⟩ := byteAt_text l.body l.loreEnds
  refine findNul_eq_some.mpr ⟨⟨by omega, by omega⟩, ?_, ?_⟩
  · rw [l.byteAt_lore, zero]
  · intro j above below
    obtain ⟨i, rfl⟩ := Nat.exists_eq_add_of_le above
    rw [l.byteAt_lore]
    exact before i (by omega)

/-- A text with a zero byte behind it is read whole, whichever way its size comes out. -/
theorem value_fromLatin1 (m : Buffer) (start : Nat) {text : Bytes} (ends : 0 ∉ text)
    (here : (m.bytes.drop start).take (text.length + 1) = text ++ [0])
    (inside : start + text.length + 1 ≤ m.length) (sized : text.length < 2 ^ 32)
    : (fromLatin1 start (start + text.length)).value m = Utf8.fromLatin1 text := by
  have length : start + text.length - start = text.length := by omega
  have size : (Int32.ofNat text.length).toInt
      = if text.length < 2 ^ 31 then (text.length : Int) else text.length - 2 ^ 32 := by
    rw [Int32.toInt_ofNat', Int32.size, Int.bmod_def]
    split_ifs <;> omega
  have negative : Int32.ofNat text.length < 0 ↔ (Int32.ofNat text.length).toInt < 0 :=
    Int32.lt_iff_toInt_lt
  rw [fromLatin1, length]
  split_ifs with minus
  · rw [value_bind, value_pure, value_bytes, Buffer.slice_eq (by omega), here]
    congr 1
    have kept : ∀ b ∈ text, decide (b ≠ 0) = true := by
      intro b member
      apply decide_eq_true
      rintro rfl
      exact ends member
    rw [List.takeWhile_append_of_pos kept]
    simp
  · rw [negative, size] at minus
    have small : text.length < 2 ^ 31 := by
      by_contra large
      rw [if_neg large] at minus
      omega
    rw [value_bind, value_pure, value_bytes, size, if_pos small, Int.toNat_natCast,
      Buffer.slice_eq (by omega)]
    congr 1
    have shorter := congrArg (List.take text.length) here
    rwa [List.take_take, Nat.min_eq_left (Nat.le_succ _), List.take_left] at shorter

/-- Four bytes of the header. -/
theorem field_header (beyond : Nat → UInt8) {offset count : Nat}
    (inside : offset + count ≤ l.header.length)
    : (Buffer.mk l.bytes beyond).slice offset count = (l.header.drop offset).take count := by
  have length := l.length_bytes
  rw [Buffer.slice_eq (by change offset + count ≤ l.bytes.length; omega)]
  change (l.bytes.drop offset).take count = _
  rw [bytes, List.drop_append_of_le_length (by omega), List.take_append_of_le_length]
  rw [List.length_drop]
  omega

/-- Bytes of the template. -/
theorem slice_body (beyond : Nat → UInt8)
    : (Buffer.mk l.bytes beyond).slice
        (l.header.length + l.name.length + 1 + l.lore.length + 1) kParsedItemMinSize
      = l.body.take kParsedItemMinSize := by
  have length := l.length_bytes
  have template := l.template
  rw [Buffer.slice_eq (by change _ ≤ l.bytes.length; omega)]
  change (l.bytes.drop _).take _ = _
  have whole : l.bytes = (l.header ++ (l.name ++ 0 :: l.lore) ++ [0]) ++ l.body := by
    simp [bytes]
  rw [whole, List.drop_append_of_le_length (by simp; omega), List.drop_of_length_le]
  · rfl
  · simp only [List.length_append, List.length_cons, List.length_nil]
    omega

theorem readU32LE_body {offset : Nat} (inside : offset + 4 ≤ kParsedItemMinSize)
    : readU32LE ((l.body.take kParsedItemMinSize).drop offset)
      = .ofNat (field l.body offset 4) := by
  have template := l.template
  rw [readU32LE_eq, field, List.drop_take, List.take_take, Nat.min_eq_left (by omega)]
  rw [List.length_drop, List.length_take]
  omega

theorem byteAt_body {offset : Nat} (inside : offset < kParsedItemMinSize)
    : byteAt (l.body.take kParsedItemMinSize) offset = byteAt l.body offset := by
  rw [byteAt, byteAt, List.getD_eq_getElem?_getD, List.getD_eq_getElem?_getD,
    List.getElem?_take_of_lt inside]

/-- What is read of a layout is what it says. -/
theorem describes (beyond : Nat → UInt8)
    : l.Describes
        (itemAt ⟨l.bytes, beyond⟩ l.header.length (l.header.length + l.name.length)
          (l.header.length + l.name.length + 1 + l.lore.length)) := by
  have probed : 64 ≤ l.header.length := l.probed
  have length := l.length_bytes
  have sized := l.sized
  have word {offset : Nat} (inside : offset + 4 ≤ kParsedItemMinSize)
      : readU32LE (((Buffer.mk l.bytes beyond).slice
          (l.header.length + l.name.length + 1 + l.lore.length + 1) kParsedItemMinSize).drop offset)
        = .ofNat (field l.body offset 4) := by
    rw [l.slice_body beyond, l.readU32LE_body inside]
  have single {offset : Nat} (inside : offset < kParsedItemMinSize)
      : byteAt ((Buffer.mk l.bytes beyond).slice
          (l.header.length + l.name.length + 1 + l.lore.length + 1) kParsedItemMinSize) offset
        = byteAt l.body offset := by
    rw [l.slice_body beyond, l.byteAt_body inside]
  have header {offset : Nat} (inside : offset + 4 ≤ 64)
      : readU32LE ((Buffer.mk l.bytes beyond).slice offset 4) = .ofNat (field l.header offset 4) := by
    rw [l.field_header beyond (by omega), readU32LE_eq, List.take_take, Nat.min_self, field]
    rw [List.length_take, List.length_drop]
    omega
  constructor
  · exact header (by decide)
  · exact header (by decide)
  · exact header (by decide)
  · have inside : 29 + 2 ≤ l.header.length := by omega
    have two := l.field_header beyond inside
    change (byteAt _ 0).toUInt16 ||| (byteAt _ 1).toUInt16 <<< 8 = _
    rw [two, readU16LE_eq, List.take_take, Nat.min_self, field]
    rw [List.length_take, List.length_drop]
    omega
  · refine value_fromLatin1 _ _ l.nameEnds ?_ ?_ (by omega)
    · change (l.bytes.drop _).take _ = _
      rw [bytes, List.drop_left, List.take_append, List.take_of_length_le (by omega)]
      simp
    · change _ ≤ l.bytes.length
      omega
  · refine value_fromLatin1 _ _ l.loreEnds ?_ ?_ (by omega)
    · change (l.bytes.drop _).take _ = _
      have whole : l.bytes = (l.header ++ (l.name ++ [0])) ++ (l.lore ++ 0 :: l.body) := by
        simp [bytes]
      have place : l.header.length + l.name.length + 1 = (l.header ++ (l.name ++ [0])).length := by
        simp only [List.length_append, List.length_singleton]
        omega
      rw [whole, place, List.drop_left, List.take_append, List.take_of_length_le (by omega)]
      simp
    · change _ ≤ l.bytes.length
      omega
  · exact word (by decide)
  · rw [← word (by decide)]
    rfl
  · exact word (by decide)
  · exact word (by decide)
  · intro i
    have below : i.val < 5 := i.isLt
    exact congrArg UInt8.toInt8 (single (by simp only [kParsedItemMinSize]; omega))
  · exact congrArg UInt8.toInt8 (single (by decide))
  · intro i
    have below : i.val < 7 := i.isLt
    exact congrArg UInt8.toInt8 (single (by simp only [kParsedItemMinSize]; omega))
  · exact congrArg UInt32.toInt32 (word (by decide))
  · exact congrArg UInt32.toInt32 (word (by decide))
  · exact congrArg UInt32.toInt32 (word (by decide))
  · exact congrArg UInt32.toInt32 (word (by decide))

end ItemLayout

-----------------------------------------------------------------------------------------
-- The parser of the item cache
-----------------------------------------------------------------------------------------

/-- The template lies in its first bytes. -/
theorem parsedItem_take (wrapper : ItemTemplate) {p : Bytes} (enough : kParsedItemMinSize ≤ p.length)
    : parsedItem wrapper (p.take kParsedItemMinSize) = parsedItem wrapper p := by
  have word {k : Nat} (inside : k + 4 ≤ kParsedItemMinSize)
      : readU32LE ((p.take kParsedItemMinSize).drop k) = readU32LE (p.drop k) := by
    rw [readU32LE_eq, readU32LE_eq, List.drop_take, List.take_take, Nat.min_eq_left (by omega)]
    · rw [List.length_drop]
      omega
    · rw [List.length_drop, List.length_take]
      omega
  have single {k : Nat} (inside : k < kParsedItemMinSize)
      : byteAt (p.take kParsedItemMinSize) k = byteAt p k := by
    rw [byteAt, byteAt, List.getD_eq_getElem?_getD, List.getD_eq_getElem?_getD,
      List.getElem?_take_of_lt inside]
  have stats : (fun i : Fin itemStatCount => (byteAt (p.take kParsedItemMinSize) (40 + i)).toInt8)
      = fun i : Fin itemStatCount => (byteAt p (40 + i)).toInt8 := by
    funext i
    have below : i.val < 7 := i.isLt
    rw [single (by simp only [kParsedItemMinSize]; omega)]
  have resists : (fun i : Fin itemResCount => (byteAt (p.take kParsedItemMinSize) (34 + i)).toInt8)
      = fun i : Fin itemResCount => (byteAt p (34 + i)).toInt8 := by
    funext i
    have below : i.val < 5 := i.isLt
    rw [single (by simp only [kParsedItemMinSize]; omega)]
  rw [parsedItem, parsedItem, stats, resists, single (by decide), word (by decide),
    word (by decide), word (by decide), word (by decide), readI32LE, readI32LE, readI32LE,
    readI32LE, word (by decide), word (by decide), word (by decide), word (by decide)]
  rfl

/-- A name that a scan ended is read as it lies there. -/
theorem value_fromLatin1_slice {start stop : Nat}
    (scanned : Scry.findNul m.bytes start = some stop) (sized : m.length < 2 ^ 32)
    : (fromLatin1 start stop).value m = Utf8.fromLatin1 (slice m.bytes start stop) := by
  obtain ⟨⟨above, inside⟩, zero, before⟩ := findNul_eq_some.mp scanned
  have within : stop < m.length := inside
  have length : (slice m.bytes start stop).length = stop - start := by
    rw [slice, List.length_take, List.length_drop]
    omega
  have text := @ItemLayout.value_fromLatin1 m start (slice m.bytes start stop)
  rw [length, Nat.add_sub_cancel' above] at text
  refine text (fun member => ?_) ?_ (by omega) (by omega)
  · obtain ⟨i, below, isZero⟩ := List.getElem_of_mem member
    rw [length] at below
    refine before (start + i) (by omega) (by omega) ?_
    have here : start + i < m.bytes.length := by omega
    rw [byteAt, List.getD_eq_getElem?_getD, List.getElem?_eq_getElem here, Option.getD_some,
      ← isZero]
    simp [slice]
  · have last : (m.bytes.drop start)[stop - start]? = some 0 := by
      rw [List.getElem?_drop, Nat.add_sub_cancel' above, List.getElem?_eq_getElem inside]
      rw [byteAt, List.getD_eq_getElem?_getD, List.getElem?_eq_getElem inside,
        Option.getD_some] at zero
      rw [zero]
    rw [List.take_add_one, last]
    rfl

theorem itemAt_eq (enough : kHeaderProbeStart ≤ m.length) {nameStart firstNul secondNul : Nat}
    (first : Scry.findNul m.bytes nameStart = some firstNul)
    (second : Scry.findNul m.bytes (firstNul + 1) = some secondNul)
    (fits : secondNul + 1 + kParsedItemMinSize ≤ m.length) (sized : m.length < 2 ^ 32)
    : itemAt m nameStart firstNul secondNul
      = parsedItem
          { packetType := readU32LE m.bytes
            stackCount := readU32LE (m.bytes.drop 21)
            mainSlot := readU32LE (m.bytes.drop 25)
            subSlot :=
              (byteAt m.bytes 29).toUInt16 ||| (byteAt m.bytes 30).toUInt16 <<< 8
            itemName := Utf8.fromLatin1 (slice m.bytes nameStart firstNul)
            loreName := Utf8.fromLatin1 (slice m.bytes (firstNul + 1) secondNul) }
          (m.bytes.drop (secondNul + 1)) := by
  have length : m.bytes.length = m.length := rfl
  have atLeast : 64 ≤ m.length := enough
  have word {k : Nat} (inside : k + 4 ≤ 64)
      : readU32LE (m.slice k 4) = readU32LE (m.bytes.drop k) := by
    rw [Buffer.slice_eq (by omega), readU32LE_eq, readU32LE_eq, List.take_take, Nat.min_self]
    · rw [List.length_drop]
      omega
    · rw [List.length_take, List.length_drop]
      omega
  have whole : readU32LE (m.slice 0 4) = readU32LE m.bytes := word (by decide)
  have two : m.slice 29 2 = [byteAt m.bytes 29, byteAt m.bytes 30] := by
    change [m.byte 29, m.byte 30] = _
    simp only [Buffer.byte, byteAt, List.getD_eq_getElem?_getD,
      List.getElem?_eq_getElem (show 29 < m.bytes.length by omega),
      List.getElem?_eq_getElem (show 30 < m.bytes.length by omega), Option.getD_some]
  rw [itemAt, whole, word (by decide), word (by decide), two, value_fromLatin1_slice first sized,
    value_fromLatin1_slice second sized, Buffer.slice_eq fits, parsedItem_take]
  · rfl
  · rw [List.length_drop]
    omega

/-- Up to the size of a packet, the item is the one that the cache gets. -/
theorem value_parseItemPacket (sized : m.length < 2 ^ 32)
    : (parseItemPacket m.length).value m = Scry.parseItemPacket m.bytes := by
  have length : m.bytes.length = m.length := rfl
  refine Option.ext fun item => ?_
  rw [value_parseItemPacket_eq_some, Scry.parseItemPacket, length]
  by_cases short : m.length < kHeaderProbeStart
  · rw [if_pos short]
    exact iff_of_false (fun both => absurd short (Nat.not_lt.mpr both.1))
      fun same => Option.some_ne_none _ same.symm
  · have enough : kHeaderProbeStart ≤ m.length := Nat.not_lt.mp short
    rw [if_neg short, and_iff_right enough]
    by_cases marked : byteAt m.bytes 20 = 0
    · rw [and_iff_right marked, if_neg fun other => other marked]
      simp only [Option.bind_eq_bind, Option.bind_eq_some_iff]
      refine exists_congr fun nameStart => and_congr_right fun started => ?_
      refine exists_congr fun firstNul => and_congr_right fun first => ?_
      refine exists_congr fun secondNul => and_congr_right fun second => ?_
      by_cases room : secondNul + 1 + kParsedItemMinSize > m.length
      · rw [if_pos room]
        exact iff_of_false (fun both => absurd room (Nat.not_lt.mpr both.1))
          fun same => Option.some_ne_none _ same.symm
      · have fits := Nat.not_lt.mp room
        rw [if_neg room, and_iff_right fits, Option.some.injEq,
          itemAt_eq enough first second fits sized]
    · rw [if_pos marked]
      exact iff_of_false (fun both => marked both.1)
        fun same => Option.some_ne_none _ same.symm

/-- A packet of the layout is parsed into what the layout says; and whatever a buffer holds, the
parser reads inside it and refuses what has not the delimiters and the template.
-/
theorem parseItemPacket_layout
    : (∀ (l : ItemLayout) (beyond : Nat → UInt8), ∃ item,
        (parseItemPacket l.bytes.length).value ⟨l.bytes, beyond⟩ = some item
          ∧ l.Describes item)
      ∧ ∀ m : Buffer, (parseItemPacket m.length).Within m
          ∧ (¬ Delimited m.bytes → (parseItemPacket m.length).value m = none) := by
  refine ⟨fun l beyond => ?_, fun m => ⟨within_parseItemPacket, fun missing => ?_⟩⟩
  · have probed : 64 ≤ l.header.length := l.probed
    have length := l.length_bytes
    have template := l.template
    refine ⟨_, value_parseItemPacket_eq_some (m := ⟨l.bytes, beyond⟩).mpr
      ⟨?_, ?_, _, l.findNameStart_bytes, _, l.findNul_name, _, l.findNul_lore, ?_, rfl⟩,
      l.describes beyond⟩
    · change 64 ≤ l.bytes.length
      omega
    · change byteAt l.bytes 20 = 0
      rw [l.byteAt_header (by omega)]
      exact l.marked
    · change _ ≤ l.bytes.length
      omega
  · rw [← Option.not_isSome_iff_eq_none, value_parseItemPacket_isSome_iff]
    exact fun both => missing both.2.2

end ItemReader
end Scry
