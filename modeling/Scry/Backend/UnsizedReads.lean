import Scry.Backend.WireLive

/-! Where the handlers without a size check stay inside the message: the scans and loops that do
for every message, and the loops over arguments that do for some.
-/

namespace Scry

namespace WireLive

open Reading

variable {m : Buffer}

-----------------------------------------------------------------------------------------
-- Single reads
-----------------------------------------------------------------------------------------

@[simp]
theorem within_byte {offset : Nat} : (byte offset).Within m ↔ offset + 1 ≤ m.length := by
  simp [byte]

@[simp]
theorem plain_byte (offset : Nat) : (byte offset).Plain m := by
  simp [byte]

@[simp]
theorem within_u32 {offset : Nat} : (u32 offset).Within m ↔ offset + 4 ≤ m.length := by
  simp [u32]

@[simp]
theorem plain_u32 (offset : Nat) : (u32 offset).Plain m := by
  simp [u32]

@[simp]
theorem within_copy {offset count : Nat}
    : (copy offset count).Within m ↔ offset + count ≤ m.length := by
  simp [copy]

@[simp]
theorem plain_copy (offset count : Nat) : (copy offset count).Plain m := by
  simp [copy]

/-- The whole of a message is there to be decoded. -/
theorem careful_whole (d : Decoder Unit) : (whole d m.length).Careful m :=
  careful_whenDecoded.mpr ⟨by simp, fun _ _ => careful_pure true m⟩

-----------------------------------------------------------------------------------------
-- The player profile
-----------------------------------------------------------------------------------------

theorem within_markersAt {off : Nat} {markers : List Nat}
    (room : ∀ marker ∈ markers, off + marker + 4 ≤ m.length)
    : (markersAt off markers).Within m := by
  induction markers with
  | nil => simp [markersAt]
  | cons marker rest ih =>
      have next := ih fun other listed => room other (List.mem_cons_of_mem marker listed)
      simp only [markersAt, within_bind, within_u32]
      refine ⟨room marker List.mem_cons_self, ?_⟩
      split
      · simp
      · exact next

theorem within_markersOk (off : Nat) : (markersOk m.length off).Within m := by
  simp only [markersOk]
  split
  · simp
  · next room =>
      apply within_markersAt
      intro marker listed
      have small : marker ≤ 86 := by
        revert marker
        decide
      simp only [sizeofSpellBuff] at room
      omega

theorem within_countBuffs (b left n : Nat) : (countBuffs m.length b left n).Within m := by
  induction left generalizing b n with
  | zero => simp [countBuffs]
  | succ left ih =>
      simp only [countBuffs]
      split
      · simp
      · next room =>
          simp only [sizeofSpellBuff] at room
          simp only [within_bind, within_u32, within_byte]
          exact ⟨by omega, by omega, by omega, ih _ _⟩

theorem within_markedRun (cur : Nat) : (markedRun m.length cur).Within m := by
  induction cur using markedRun.induct m.length with
  | case1 cur ih =>
      rw [markedRun]
      simp only [within_bind]
      refine ⟨within_markersOk cur, ?_⟩
      split
      · next marked => simpa only [within_bind, within_pure, and_true] using ih _ marked
      · simp

/-- The search stays inside, and so does what it finds. -/
theorem within_findBuffs (off : Nat) (best : BuffArray)
    (known : 0 < best.bestRun → best.buffArrayStart ≤ m.length)
    : (findBuffs m.length off best).Within m
      ∧ (0 < ((findBuffs m.length off best).value m).bestRun →
          ((findBuffs m.length off best).value m).buffArrayStart ≤ m.length) := by
  induction off, best using findBuffs.induct m.length with
  | case1 off best room jump next =>
      rw [findBuffs]
      simp only [room, dite_true, within_bind, value_bind]
      rw [and_assoc]
      refine ⟨within_markersOk off, ?_⟩
      split
      · next marked =>
          simp only [within_bind, value_bind]
          rw [and_assoc, and_assoc]
          refine ⟨within_markedRun _, within_countBuffs _ _ _, ?_⟩
          apply jump
          split
          · intro _
            exact Nat.le_of_add_right_le room
          · exact known
      · exact next known
  | case2 off best room =>
      rw [findBuffs]
      simp only [room, dite_false, within_pure, value_pure, true_and]
      exact known

theorem within_copySkills : (copySkills m.length).Within m := by
  simp only [copySkills]
  split
  · next room => exact within_copy.mpr room
  · simp

theorem within_copyBuffs : (copyBuffs m.length).Within m := by
  obtain ⟨searched, found⟩ := within_findBuffs (m := m) 0x3000 ⟨0, -1, 0⟩ (by simp)
  simp only [copyBuffs, within_bind]
  refine ⟨searched, ?_⟩
  split
  · next enough =>
      have inside := found (by omega)
      have room
          : toSizeT ((m.length : Int)
              - ((findBuffs m.length 0x3000 ⟨0, -1, 0⟩).value m).buffArrayStart)
            ≤ m.length - ((findBuffs m.length 0x3000 ⟨0, -1, 0⟩).value m).buffArrayStart := by
        simp only [toSizeT]
        omega
      simp only [within_bind, within_wrapIf, within_copy]
      omega
  · simp

/-- The profile is filled in vain if the message is too short for it. -/
theorem careful_zonePlayer (d : Decoders)
    : (zonePlayer d m.length).Careful m ↔ d.playerProfile.least ≤ m.length := by
  rw [careful_iff_within rfl]
  simp [zonePlayer, fillProfileStruct, within_copySkills, within_copyBuffs]

-----------------------------------------------------------------------------------------
-- Zones
-----------------------------------------------------------------------------------------

theorem within_decodeZonePoints (d : Decoders) (p count : Nat)
    (room : p + count * sizeofZonePointStruct ≤ m.length)
    : (decodeZonePoints d p count).Within m := by
  induction count generalizing p with
  | zero => simp [decodeZonePoints]
  | succ left ih =>
      have least := d.zonePoint_least
      simp only [sizeofZonePointStruct] at room least ih
      simp only [decodeZonePoints, within_bind, within_decode, sizeofZonePointStruct]
      exact ⟨⟨by omega, by omega⟩, ih _ (by omega)⟩

theorem careful_zonePoints (d : Decoders) (dir : UInt8)
    : (zonePoints d m.length dir).Careful m := by
  simp only [zonePoints]
  split
  · exact careful_pure _ m
  · next four =>
      have counted : (u32 0).Within m := within_u32.mpr (by omega)
      refine (careful_bind_of_within counted).mpr ?_
      split
      · exact careful_pure _ m
      · next room =>
          have points := within_decodeZonePoints d 4 _ (Nat.le_of_not_lt room)
          exact (careful_bind_of_within points).mpr (careful_pure _ m)

theorem careful_dynamicZonePoints (d : Decoders) (dir : UInt8)
    : (dynamicZonePoints d m.length dir).Careful m := by
  simp only [dynamicZonePoints]
  split
  · exact careful_whole _
  · exact careful_pure _ m

-----------------------------------------------------------------------------------------
-- Items
-----------------------------------------------------------------------------------------

/-- The scan stays inside, and what it finds is at or behind the start. -/
theorem findNul_inside (i : Nat)
    : (findNul m.length i).Within m
      ∧ ∀ j, (findNul m.length i).value m = some j → i ≤ j ∧ j < m.length := by
  induction i using findNul.induct m.length with
  | case1 i inside ih =>
      obtain ⟨within, found⟩ := ih
      rw [findNul]
      simp only [inside, dite_true, within_bind, within_byte, value_bind]
      split
      · simp only [within_pure, value_pure, Option.some.injEq, and_true]
        refine ⟨by omega, ?_⟩
        rintro j rfl
        exact ⟨le_refl _, inside⟩
      · refine ⟨⟨by omega, within⟩, fun j at_j => ?_⟩
        obtain ⟨low, high⟩ := found j at_j
        exact ⟨by omega, high⟩
  | case2 i outside =>
      rw [findNul]
      simp [outside]

theorem findNameStart_inside (i : Nat)
    : (findNameStart m.length i).Within m
      ∧ ∀ j, (findNameStart m.length i).value m = some j → i ≤ j ∧ j < m.length := by
  induction i using findNameStart.induct m.length with
  | case1 i inside ih =>
      obtain ⟨within, found⟩ := ih
      have later
          : ∀ j, (findNameStart m.length (i + 1)).value m = some j
            → i ≤ j ∧ j < m.length := by
        intro j at_j
        obtain ⟨low, high⟩ := found j at_j
        exact ⟨by omega, high⟩
      rw [findNameStart]
      simp only [inside, dite_true, within_bind, within_byte, value_bind]
      split
      · simp only [within_bind, within_byte, value_bind]
        split
        · simp only [within_pure, value_pure, Option.some.injEq, and_true]
          refine ⟨⟨by omega, by omega⟩, ?_⟩
          rintro j rfl
          exact ⟨le_refl _, by omega⟩
        · exact ⟨⟨by omega, by omega, within⟩, later⟩
      · exact ⟨⟨by omega, within⟩, later⟩
  | case2 i outside =>
      rw [findNameStart]
      simp [outside]

/-- A name of a message that is no longer than an `int` says is copied as it is. -/
theorem within_copyName {start stop : Nat} (forward : start ≤ stop) (inside : stop ≤ m.length)
    (short : m.length ≤ 0x7fffffff)
    : (copyName start stop).Within m := by
  simp only [copyName, within_bind, within_wrapIf, within_copy]
  omega

theorem careful_readItemPacket (short : m.length ≤ 0x7fffffff)
    : (readItemPacket m.length).Careful m := by
  simp only [readItemPacket]
  split
  · exact careful_pure _ m
  · next enough =>
      simp only [kHeaderProbeStart] at enough ⊢
      apply (careful_bind_of_within (within_byte.mpr (by omega))).mpr
      split
      · exact careful_pure _ m
      · apply (careful_bind_of_within (within_u32.mpr (by omega))).mpr
        apply (careful_bind_of_within (within_u32.mpr (by omega))).mpr
        apply (careful_bind_of_within (within_u32.mpr (by omega))).mpr
        apply (careful_bind_of_within (within_bytes.mpr (by omega))).mpr
        obtain ⟨scanned, started⟩ := findNameStart_inside (m := m) 64
        apply (careful_bind_of_within scanned).mpr
        split
        · exact careful_pure _ m
        · next nameStart at_name =>
            obtain ⟨_, nameInside⟩ := started nameStart at_name
            obtain ⟨scanned, ended⟩ := findNul_inside (m := m) nameStart
            apply (careful_bind_of_within scanned).mpr
            split
            · exact careful_pure _ m
            · next firstNul at_first =>
                obtain ⟨behindName, firstInside⟩ := ended firstNul at_first
                obtain ⟨scanned, ended⟩ := findNul_inside (m := m) (firstNul + 1)
                apply (careful_bind_of_within scanned).mpr
                split
                · exact careful_pure _ m
                · next secondNul at_second =>
                    obtain ⟨behindLore, _⟩ := ended secondNul at_second
                    split
                    · exact careful_pure _ m
                    · next room =>
                        simp only [kParsedItemMinSize] at room
                        apply (careful_bind_of_within
                          (within_copyName behindName (by omega) short)).mpr
                        apply (careful_bind_of_within
                          (within_copyName behindLore (by omega) short)).mpr
                        apply (careful_bind_of_within (within_bytes.mpr (by omega))).mpr
                        apply (careful_bind_of_within (within_bytes.mpr (by omega))).mpr
                        apply (careful_bind_of_within (within_bytes.mpr (by omega))).mpr
                        exact careful_pure _ m

/-- Inside the message a byte is the message's. -/
theorem value_byte {i : Nat} (inside : i < m.length) : (byte i).value m = byteAt m.bytes i := by
  have inBytes : i < m.bytes.length := inside
  have known : m.byte i = m.bytes[i] := by
    simp only [Buffer.byte, List.getD_eq_getElem?_getD, List.getElem?_eq_getElem inBytes,
      Option.getD_some]
  change UInt8.ofNat (LittleEndian.decode (m.slice i 1)) = _
  simp [Buffer.slice, LittleEndian.decode, known, byteAt, List.getD_eq_getElem?_getD, inBytes]

/-- The scans find what those of the parsed item do, by induction along them. -/
theorem value_findNul (i : Nat)
    : (findNul m.length i).value m = Scry.findNul m.bytes i := by
  induction i using findNul.induct m.length with
  | case1 i inside ih =>
      have count : m.bytes.length - i = (m.bytes.length - (i + 1)) + 1 := by
        have := inside
        simp only [Buffer.length] at this
        omega
      rw [findNul, Scry.findNul, count, List.range'_succ, List.find?_cons]
      simp only [inside, dite_true, value_bind, value_byte inside]
      cases zero : byteAt m.bytes i == 0 with
      | true => simp [beq_iff_eq.mp zero]
      | false => simpa [beq_eq_false_iff_ne.mp zero, Scry.findNul] using ih
  | case2 i outside =>
      have none : m.bytes.length - i = 0 := by
        simp only [Buffer.length] at outside
        omega
      rw [findNul, Scry.findNul, none]
      simp [outside]

theorem value_findNameStart (i : Nat)
    : (findNameStart m.length i).value m = Scry.findNameStart m.bytes i := by
  induction i using findNameStart.induct m.length with
  | case1 i inside ih =>
      have count : m.bytes.length - 1 - i = (m.bytes.length - 1 - (i + 1)) + 1 := by
        have := inside
        simp only [Buffer.length] at this
        omega
      have before : (byte (i - 1)).value m = byteAt m.bytes (i - 1) :=
        value_byte (by omega)
      rw [findNameStart, Scry.findNameStart, count, List.range'_succ, List.find?_cons]
      simp only [inside, dite_true, value_bind, value_byte (Nat.lt_of_succ_lt inside)]
      cases capital : (decide (0x41 ≤ byteAt m.bytes i) && byteAt m.bytes i ≤ 0x5a && 0 < i) with
      | false =>
          rw [if_neg (by simpa using capital), Bool.false_and]
          exact ih
      | true =>
          rw [if_pos (by simpa [and_assoc] using capital), Bool.true_and]
          simp only [value_bind, before]
          cases zero : byteAt m.bytes (i - 1) == 0 with
          | true => simp [beq_iff_eq.mp zero]
          | false => simpa [beq_eq_false_iff_ne.mp zero, Scry.findNameStart] using ih
  | case2 i outside =>
      have none : m.bytes.length - 1 - i = 0 := by
        simp only [Buffer.length] at outside
        omega
      rw [findNameStart, Scry.findNameStart, none]
      simp [outside]

/-- The handler takes a packet exactly if an item can be parsed from it. -/
theorem value_readItemPacket
    : (readItemPacket m.length).value m = (parseItemPacket m.bytes).isSome := by
  have sized : m.bytes.length = m.length := rfl
  simp only [readItemPacket, parseItemPacket, sized]
  split
  · rfl
  · next enough =>
      have twenty : 20 < m.length := by
        simp only [kHeaderProbeStart] at enough
        omega
      simp only [value_bind, value_byte twenty]
      split
      · rfl
      · simp only [value_bind, value_findNameStart]
        cases Scry.findNameStart m.bytes kHeaderProbeStart with
        | none => rfl
        | some nameStart =>
            simp only [value_bind, value_findNul, Option.bind_eq_bind, Option.bind_some]
            cases Scry.findNul m.bytes nameStart with
            | none => rfl
            | some firstNul =>
                simp only [value_bind, value_findNul, Option.bind_some]
                cases Scry.findNul m.bytes (firstNul + 1) with
                | none => rfl
                | some secondNul =>
                    simp only [Option.bind_some]
                    split
                    · rfl
                    · rfl

-----------------------------------------------------------------------------------------
-- Spawns
-----------------------------------------------------------------------------------------

theorem careful_newGroundItem (d : Decoders) (q : Managers) (dir : UInt8)
    : (newGroundItem d q m.length dir).Careful m := by
  simp only [newGroundItem]
  split
  · exact careful_pure _ m
  · split
    · exact careful_pure _ m
    · exact careful_whole _

theorem careful_removeSpawn (d : Decoders) (dir : UInt8)
    : (removeSpawn d m.length dir).Careful m := by
  simp only [removeSpawn]
  split
  · exact careful_pure _ m
  · split
    · exact careful_pure _ m
    · next exact_length =>
        refine careful_whenDecoded.mpr ⟨?_, fun _ _ => careful_pure _ m⟩
        simp only [Decidable.not_not] at exact_length
        omega

theorem careful_npcMoveUpdate (d : Decoders) (q : Managers) (dir : UInt8)
    : (npcMoveUpdate d q m.length dir).Careful m := by
  simp only [npcMoveUpdate]
  split
  · exact careful_pure _ m
  · split
    · exact careful_pure _ m
    · exact careful_whole _

theorem within_readUInt32NC (pos : Nat) : (readUInt32NC m.length pos).Within m := by
  simp only [readUInt32NC]
  split
  · simp only [within_bind, within_u32, within_pure, and_true]
    omega
  · simp

theorem within_readUInt16NC (pos : Nat) : (readUInt16NC m.length pos).Within m := by
  simp only [readUInt16NC]
  split
  · simp only [within_bind, within_word, within_pure, and_true]
    omega
  · simp

theorem within_readShroudHeader : (readShroudHeader m.length).Within m := by
  simp only [readShroudHeader, within_bind]
  exact ⟨within_readUInt32NC _, within_readUInt16NC _, within_pure _ m⟩

/-- The embedded spawn ends inside the message, and the player's own is followed by a profile. -/
def ShroudFits (d : Decoders) (q : Managers) (m : Buffer) : Prop :=
  let header := (readShroudHeader m.length).value m
  let stop := header.pos + (header.spawnStructSize - 6).toNat
  ¬ header.spawnStructSize < 6
  ∧ stop ≤ m.length
  ∧ (d.spawn.decode (m.slice header.pos (header.spawnStructSize - 6).toNat) = some () →
      header.spawnID = q.playerId.toUInt32 →
      stop + sizeofPlayerProfileStruct ≤ m.length)

theorem skipBytes_eq {pos byteCount : Nat} (inside : pos + byteCount ≤ m.length)
    (short : m.length ≤ 0x7fffffff)
    : skipBytes m.length pos byteCount = pos + byteCount := by
  have left : (UInt32.ofNat (m.length - pos)).toNat = m.length - pos :=
    UInt32.toNat_ofNat_of_lt' (by simp only [UInt32.size]; omega)
  rw [skipBytes, left, if_pos (by omega)]

theorem careful_shroudSpawn (d : Decoders) (q : Managers) (dir : UInt8)
    (short : m.length ≤ 0x7fffffff)
    : (shroudSpawn d q m.length dir).Careful m ↔ ShroudFits d q m := by
  simp only [shroudSpawn, ShroudFits]
  rw [careful_bind_of_within within_readShroudHeader, (plain_wrapIf _ m).careful_bind,
    within_wrapIf, careful_whenDecoded]
  refine and_congr_right fun _ => and_congr_right fun inside => ?_
  refine Iff.trans ⟨fun all => all (), fun one _ => one⟩ (imp_congr_right fun _ => ?_)
  split
  · next other => simp [other]
  · next own =>
      simp only [Decidable.not_not] at own
      rw [(plain_copy _ _).careful_bind, within_copy, skipBytes_eq inside short]
      simp [own]

-----------------------------------------------------------------------------------------
-- Messages
-----------------------------------------------------------------------------------------

theorem careful_channelMessage (d : Decoders) (dir : UInt8)
    : (channelMessage d m.length dir).Careful m := by
  refine careful_whenDecoded.mpr ⟨by simp, fun chanNum _ => ?_⟩
  split
  · exact careful_pure _ m
  · exact careful_pure _ m

theorem careful_specialMessage (d : Decoders) (dir : UInt8)
    : (specialMessage d m.length dir).Careful m := by
  simp only [specialMessage]
  split
  · exact careful_pure _ m
  · exact careful_whole _

/-- The size that stands before an argument. -/
def argumentSize (m : Buffer) (offset : Nat) : UInt32 := (u32 offset).value m

/-- Arguments behind their sizes fill the message from `total` on. -/
inductive ArgumentsFill (m : Buffer) (arguments argsLen : Nat) : Nat → Prop
  | done {total : Nat} (reached : argsLen ≤ total) : ArgumentsFill m arguments argsLen total
  | next {total : Nat} (left : total < argsLen)
      (fits : total + 4 + (argumentSize m (arguments + total)).toNat ≤ argsLen)
      (rest :
        ArgumentsFill m arguments argsLen
          (total + 4 + (argumentSize m (arguments + total)).toNat)) :
      ArgumentsFill m arguments argsLen total

/-- The arguments from `total` on lie inside, up to the first that is empty or longer than all
of them may be, or to the last few bytes.
-/
inductive ArgumentsLie (m : Buffer) (arguments argsLen : Nat) : Nat → Prop
  | done {total : Nat} (reached : argsLen ≤ total + 4) : ArgumentsLie m arguments argsLen total
  | refused {total : Nat}
      (stops :
        argumentSize m (arguments + total) = 0
        ∨ argsLen < (argumentSize m (arguments + total)).toNat) :
      ArgumentsLie m arguments argsLen total
  | next {total : Nat}
      (fits : total + 4 + (argumentSize m (arguments + total)).toNat ≤ argsLen)
      (rest :
        ArgumentsLie m arguments argsLen
          (total + 4 + (argumentSize m (arguments + total)).toNat)) :
      ArgumentsLie m arguments argsLen total

theorem within_copyArgument {offset : Nat} {size : UInt32}
    : (copyArgument offset size).Within m ↔ (0 < size → offset + size.toNat ≤ m.length) := by
  simp only [copyArgument]
  split
  · next filled => simp [filled]
  · next empty => simp [empty]

/-- The sum of a size and four is what it should be, unless it wraps. -/
theorem toNat_add_four (size : UInt32) (room : size.toNat + 4 < 4294967296)
    : (size + 4).toNat = size.toNat + 4 := by
  rw [UInt32.toNat_add]
  exact Nat.mod_eq_of_lt room

/-- One round on an argument: its size and its text are read, and the sum does not wrap. -/
theorem argument_round (offset : Nat) (size : UInt32) {length : Nat}
    (short : length ≤ 0x7fffffff)
    : (offset + 4 ≤ length ∧ (0 < size → offset + 4 + size.toNat ≤ length) ∧ ¬ size + 4 < size)
      ↔ offset + 4 + size.toNat ≤ length := by
  have positive : 0 < size ↔ 0 < size.toNat := UInt32.lt_iff_toNat_lt
  rw [positive, UInt32.lt_iff_toNat_lt]
  constructor
  · rintro ⟨four, text, _⟩
    rcases Nat.eq_zero_or_pos size.toNat with empty | filled
    · omega
    · exact text filled
  · intro fits
    rw [toNat_add_four size (by omega)]
    exact ⟨by omega, fun _ => fits, by omega⟩

theorem within_readArguments {arguments argsLen : Nat} (whole : arguments + argsLen = m.length)
    (short : m.length ≤ 0x7fffffff) (total : Nat)
    : (readArguments arguments argsLen total).Within m
      ↔ ArgumentsFill m arguments argsLen total := by
  induction total using readArguments.induct argsLen with
  | case1 total left ih =>
      rw [readArguments]
      simp only [left, dite_true, within_bind, within_u32, within_copyArgument]
      generalize same : (u32 (arguments + total)).value m = size
      have read : argumentSize m (arguments + total) = size := same
      have round := argument_round (arguments + total) size short
      rw [within_wrapIf]
      constructor
      · rintro ⟨four, text, sum, rest⟩
        have inside := round.mp ⟨four, text, sum⟩
        have step := toNat_add_four size (by omega)
        rw [dif_pos (by omega), ih _ (by omega), step, add_comm _ 4, ← add_assoc] at rest
        exact .next left (by rw [read]; omega) (by rwa [read])
      · intro fill
        cases fill with
        | done reached => omega
        | next _ fits rest =>
            rw [read] at fits rest
            obtain ⟨four, text, sum⟩ := round.mpr (by omega)
            have step := toNat_add_four size (by omega)
            refine ⟨four, text, sum, ?_⟩
            rw [dif_pos (by omega), ih _ (by omega), step, add_comm _ 4, ← add_assoc]
            exact rest
  | case2 total reached =>
      rw [readArguments]
      simp only [reached, dite_false, within_pure, true_iff]
      exact .done (by omega)

theorem within_readUnknown {arguments argsLen : Nat} (whole : arguments + argsLen = m.length)
    (total : Nat)
    : (readUnknown arguments argsLen total).Within m
      ↔ ArgumentsLie m arguments argsLen total := by
  induction total using readUnknown.induct argsLen with
  | case1 total left ih =>
      rw [readUnknown]
      simp only [left, dite_true, within_bind, within_u32]
      generalize same : (u32 (arguments + total)).value m = size
      have read : argumentSize m (arguments + total) = size := same
      split
      · next stops =>
          simp only [within_pure, and_true]
          exact ⟨fun _ => .refused (by rwa [read]), fun _ => by omega⟩
      · next taken =>
          simp only [within_bind, within_copy]
          constructor
          · rintro ⟨_, text, rest⟩
            exact .next (by rw [read]; omega) (by rw [read]; exact (ih _).mp rest)
          · intro lie
            cases lie with
            | done reached => omega
            | refused stops =>
                rw [read] at stops
                exact absurd stops taken
            | next fits rest =>
                rw [read] at fits rest
                exact ⟨by omega, by omega, (ih _).mpr rest⟩
  | case2 total reached =>
      rw [readUnknown]
      simp only [reached, dite_false, within_pure, true_iff]
      exact .done (by omega)

/-- What follows the header is what `formatMessage` takes it to be. -/
def MessageFits (q : Managers) (format : UInt32) (m : Buffer) : Prop :=
  if q.knowsFormat format then ArgumentsFill m HEADER_LEN (m.length - HEADER_LEN) 0
  else ArgumentsLie m HEADER_LEN (m.length - HEADER_LEN) 0

theorem within_formatMessage (q : Managers) (format : UInt32) (header : HEADER_LEN ≤ m.length)
    (short : m.length ≤ 0x7fffffff)
    : (formatMessage q format HEADER_LEN (m.length - HEADER_LEN)).Within m
      ↔ MessageFits q format m := by
  have whole : HEADER_LEN + (m.length - HEADER_LEN) = m.length := Nat.add_sub_cancel' header
  simp only [formatMessage, MessageFits]
  split
  · exact within_readArguments whole short 0
  · exact within_readUnknown whole 0

theorem careful_formattedMessage (d : Decoders) (q : Managers) (dir : UInt8)
    (short : m.length ≤ 0x7fffffff)
    : (formattedMessage d q m.length dir).Careful m
      ↔ (dir ≠ DIR_Client →
          ∀ format, d.formattedMessage.decode (m.slice 0 m.length) = some format →
            HEADER_LEN ≤ m.length ∧ MessageFits q format m) := by
  simp only [formattedMessage]
  split
  · next client => simp [client]
  · next server =>
      rw [careful_whenDecoded, forall_prop_of_true server, and_iff_right (by simp)]
      refine forall_congr' fun format => imp_congr_right fun _ => ?_
      rw [careful_iff_within rfl]
      simp only [within_bind, within_wrapIf, within_pure, and_true, not_lt]
      refine and_congr_right fun header => ?_
      have left
          : toSizeT ((m.length : Int) - HEADER_LEN) = m.length - HEADER_LEN := by
        simp only [toSizeT]
        omega
      rw [left]
      exact within_formatMessage q format header short

-----------------------------------------------------------------------------------------
-- Groups and buffs
-----------------------------------------------------------------------------------------

theorem careful_buff (d : Decoders) (dir : UInt8) : (buff d m.length dir).Careful m := by
  simp only [buff]
  split
  · exact careful_pure _ m
  · exact careful_whole _

/-- A handler that is not given the length needs the bytes it decodes. -/
theorem careful_fixed (d : Decoder Unit) (size : Nat)
    : (whenDecoded d 0 size fun _ => pure true).Careful m ↔ size ≤ m.length := by
  rw [careful_whenDecoded, Nat.zero_add]
  exact and_iff_left fun _ _ => careful_pure _ m

end WireLive

end Scry
