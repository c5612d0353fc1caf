import Scry.Library.CrcRemainder
import Scry.Wire.ProtocolPacket

/-! The packet checksum as the standard CRC-32 of the session key's bytes and the packet: the
table's words are bit-by-bit registers, so one table step reads eight message bits, and the
loops over the seed and the buffer read the whole message. What they leave behind is the
message's remainder by the generator.
-/

namespace Scry

open ReflectedCrc LittleEndian

/-- The reflected generating polynomial of CRC-32. -/
def crcPolynomial : BitVec 32 := 0xEDB88320

/-- The standard CRC-32, bit by bit: all ones at the start and as the final mask. -/
def crc32 (bytes : Bytes) : UInt32 :=
  ⟨check crcPolynomial 0xFFFFFFFF 0xFFFFFFFF bytes⟩

-----------------------------------------------------------------------------------------
-- The table
-----------------------------------------------------------------------------------------

/-- The pre-generated table is the one the run-time build fills in. -/
theorem crctab_eq_runtimeCrctab : crctab = runtimeCrctab := by
  decide +kernel

/-- A generated bit is a step that reads no message bit. -/
theorem crctabBit_toBitVec (c : UInt32)
    : (crctabBit c).toBitVec = step crcPolynomial c.toBitVec false := by
  have low : (c &&& 1 != 0) = c.toBitVec.getLsbD 0 := by
    have spelled : c &&& 1 = ⟨(BitVec.ofBool (c.toBitVec.getLsbD 0)).setWidth 32⟩ :=
      UInt32.toBitVec_inj.mp BitVec.and_one_eq_setWidth_ofBool_getLsbD
    rw [spelled]
    cases c.toBitVec.getLsbD 0 <;> rfl
  simp only [crctabBit, step, low, Bool.xor_false]
  split <;> rfl

theorem foldl_crctabBit_toBitVec (n : Nat) (c : UInt32)
    : ((List.range n).foldl (fun c _ => crctabBit c) c).toBitVec
      = feed crcPolynomial c.toBitVec (List.replicate n false) := by
  induction n with
  | zero => rfl
  | succ n ih =>
      rw [List.range_succ, List.foldl_append, List.replicate_succ', feed_append, ← ih]
      exact crctabBit_toBitVec _

/-- The table's word at an index is what eight generated bits make of the index. -/
theorem crctab_getD {i : UInt32} (small : i.toNat < 256)
    : crctab.getD i.toNat 0 = (List.range 8).foldl (fun c _ => crctabBit c) i := by
  rw [crctab_eq_runtimeCrctab, runtimeCrctab, List.getD_eq_getElem?_getD, List.getElem?_map,
    List.getElem?_range small, Option.map_some, Option.getD_some, UInt32.ofNat_toNat]

/-- Looking up the low octet of a word yields what its eight bits leave behind in an empty
register.
-/
theorem crctab_getD_toBitVec (x : UInt32)
    : (crctab.getD (x &&& 0xff).toNat 0).toBitVec
      = feed crcPolynomial 0#32 (lowBits 8 x.toBitVec) := by
  have small : (x &&& 0xff).toNat < 256 := by
    rw [UInt32.toNat_and]
    exact Nat.and_lt_two_pow x.toNat (by decide : UInt32.toNat 0xff < 2 ^ 8)
  have octet : lowBits 8 (x &&& 0xff).toBitVec = lowBits 8 x.toBitVec := by
    apply lowBits_congr
    intro i low
    have ones : ∀ j < 8, (0xff#32).getLsbD j = true := by decide
    rw [UInt32.toBitVec_and, BitVec.getLsbD_and]
    exact (congrArg (x.toBitVec.getLsbD i && ·) (ones i low)).trans (Bool.and_true _)
  have upper : (x &&& 0xff).toBitVec >>> 8 = 0#32 := by
    apply BitVec.eq_of_toNat_eq
    rw [BitVec.toNat_ushiftRight, Nat.shiftRight_eq_div_pow]
    exact Nat.div_eq_of_lt small
  rw [crctab_getD small, foldl_crctabBit_toBitVec, feed_replicate, octet, upper, BitVec.xor_zero]

/-- One table step reads eight message bits, the lowest first. -/
theorem crcStep_toBitVec (crc byte : UInt32)
    : (crcStep crc byte).toBitVec
      = feed crcPolynomial crc.toBitVec (lowBits 8 byte.toBitVec) := by
  calc (crcStep crc byte).toBitVec
      = (crc >>> 8).toBitVec ^^^ (crctab.getD ((byte ^^^ crc) &&& 0xff).toNat 0).toBitVec := rfl
    _ = (crc.toBitVec >>> 8)
          ^^^ feed crcPolynomial 0#32 (lowBits 8 (byte.toBitVec ^^^ crc.toBitVec)) := by
        rw [crctab_getD_toBitVec]
        rfl
    _ = feed crcPolynomial crc.toBitVec (lowBits 8 byte.toBitVec) := by
        rw [feed_lowBits crcPolynomial crc.toBitVec, BitVec.xor_comm byte.toBitVec,
          BitVec.xor_comm (crc.toBitVec >>> 8)]

-----------------------------------------------------------------------------------------
-- The loops
-----------------------------------------------------------------------------------------

/-- A loop of table steps reads the low octets of its words, by induction on the words. -/
theorem foldl_crcStep_toBitVec (words : List UInt32) (crc : UInt32)
    : (words.foldl crcStep crc).toBitVec
      = feed crcPolynomial crc.toBitVec (words.flatMap (fun word => lowBits 8 word.toBitVec)) := by
  induction words generalizing crc with
  | nil => rfl
  | cons word rest ih =>
      rw [List.foldl_cons, ih, crcStep_toBitVec, List.flatMap_cons, feed_append]

/-- The loop over a buffer reads the buffer's message. -/
theorem foldl_bytes_toBitVec (data : Bytes) (crc : UInt32)
    : (data.foldl (fun crc byte => crcStep crc byte.toUInt32) crc).toBitVec
      = feed crcPolynomial crc.toBitVec (message data) := by
  have octet (byte : UInt8) : lowBits 8 byte.toUInt32.toBitVec = lowBits 8 byte.toBitVec := by
    apply lowBits_congr
    intro i low
    rw [UInt8.toBitVec_toUInt32, BitVec.getLsbD_setWidth,
      decide_eq_true (low.trans (by decide : 8 < 32)), Bool.true_and]
  have widened := foldl_crcStep_toBitVec (data.map UInt8.toUInt32) crc
  rw [List.foldl_map, List.flatMap_map] at widened
  simp only [octet] at widened
  exact widened

/-- The four steps over the seed read its little-endian bytes. -/
theorem foldl_seed_toBitVec (seed crc : UInt32)
    : ([seed, seed >>> 8, seed >>> 16, seed >>> 24].foldl crcStep crc).toBitVec
      = feed crcPolynomial crc.toBitVec (message (encode 4 seed.toNat)) := by
  have spelled : message (encode 4 seed.toNat) = lowBits 32 seed.toBitVec :=
    message_encode 4 seed.toBitVec
  have octets : lowBits 32 seed.toBitVec
      = [seed, seed >>> 8, seed >>> 16, seed >>> 24].flatMap
          (fun word => lowBits 8 word.toBitVec) := by
    rw [lowBits_add 8 24, lowBits_add 8 16, lowBits_add 8 8, ← BitVec.shiftRight_add,
      ← BitVec.shiftRight_add]
    rfl
  rw [foldl_crcStep_toBitVec, spelled, octets]

/-- `calcCRC32` is the standard check of the bytes it is given the length of. -/
theorem calcCRC32_eq_crc32 (p : Bytes) (length : UInt32)
    : calcCRC32 p length = crc32 (readBytes p length.toNat) := by
  have steps : (fun (crc : UInt32) (byte : UInt8) =>
      crctab.getD ((crc ^^^ byte.toUInt32) &&& 0xff).toNat 0 ^^^ (crc >>> 8))
      = fun crc byte => crcStep crc byte.toUInt32 := by
    funext crc byte
    rw [crcStep, UInt32.xor_comm (crc >>> 8), UInt32.xor_comm byte.toUInt32]
  apply UInt32.toBitVec_inj.mp
  rw [calcCRC32, steps, UInt32.toBitVec_xor, foldl_bytes_toBitVec]
  rfl

/-- The 32 bits that `calcCRC16` returns the low half of. -/
def seededCRC (p : Bytes) (length : UInt32) (seed : UInt32) : UInt32 :=
  let seeded := [seed, seed >>> 8, seed >>> 16, seed >>> 24].foldl crcStep 0xffffffff
  (readBytes p length.toNat).foldl (fun crc byte => crcStep crc byte.toUInt32) seeded
    ^^^ 0xffffffff

theorem calcCRC16_eq_seededCRC (p : Bytes) {length : UInt32} (seed : UInt32)
    (short : ¬ length > 1048576)
    : calcCRC16 p length seed = (seededCRC p length seed).toUInt16 := by
  rw [calcCRC16, if_neg short, seededCRC]

/-- The seed's bytes and the buffer are one message. -/
theorem seededCRC_eq_crc32 (p : Bytes) (length seed : UInt32)
    : seededCRC p length seed
      = crc32 (encode 4 seed.toNat ++ readBytes p length.toNat) := by
  apply UInt32.toBitVec_inj.mp
  rw [seededCRC, UInt32.toBitVec_xor, foldl_bytes_toBitVec, foldl_seed_toBitVec, ← feed_append,
    ← message_append]
  rfl

/-- Without its final mask the register is the remainder of the seed's bytes and the buffer as
one binary polynomial, the start value added above them.
-/
theorem seededCRC_remainder (p : Bytes) (length seed : UInt32)
    : let bits := message (encode 4 seed.toNat ++ readBytes p length.toNat)
      registerPolynomial (seededCRC p length seed ^^^ 0xffffffff).toBitVec
        = (Polynomial.X ^ bits.length * registerPolynomial 0xffffffff#32
            + Polynomial.X ^ 32 * messagePolynomial bits) %ₘ generator crcPolynomial := by
  intro bits
  have register : (seededCRC p length seed ^^^ 0xffffffff).toBitVec
      = feed crcPolynomial 0xffffffff#32 bits := by
    calc (seededCRC p length seed ^^^ 0xffffffff).toBitVec
        = feed crcPolynomial 0xffffffff#32 bits ^^^ 0xffffffff#32 ^^^ 0xffffffff#32 := by
          rw [seededCRC_eq_crc32]
          rfl
      _ = feed crcPolynomial 0xffffffff#32 bits := by
          rw [BitVec.xor_assoc, BitVec.xor_self, BitVec.xor_zero]
  rw [register, registerPolynomial_feed]

-----------------------------------------------------------------------------------------
-- Changed bits
-----------------------------------------------------------------------------------------

/-- A buffer with one bit of one byte flipped. -/
def flipBit (data : Bytes) (i k : Nat) : Bytes :=
  data.modify i (· ^^^ UInt8.ofNat (2 ^ k))

theorem crc32_byte_injective (before after : Bytes)
    : Function.Injective (fun byte => crc32 (before ++ byte :: after)) := by
  intro a b same
  exact check_byte_injective (by decide : crcPolynomial.msb = true) (by decide : 8 ≤ 32) _ _
    before after (congrArg UInt32.toBitVec same)

/-- A flipped bit anywhere in a buffer changes the standard check. -/
theorem crc32_flipBit_ne (before data : Bytes) {i k : Nat} (inside : i < data.length)
    (low : k < 8)
    : crc32 (before ++ flipBit data i k) ≠ crc32 (before ++ data) := by
  intro same
  have original : before ++ data
      = (before ++ data.take i) ++ data[i] :: data.drop (i + 1) := by
    rw [List.append_assoc, ← List.drop_eq_getElem_cons inside, List.take_append_drop]
  have flipped : before ++ flipBit data i k
      = (before ++ data.take i) ++ (data[i] ^^^ UInt8.ofNat (2 ^ k)) :: data.drop (i + 1) := by
    rw [flipBit, List.modify_eq_take_cons_drop inside, List.append_assoc]
  rw [flipped, original] at same
  have unchanged : data[i] ^^^ UInt8.ofNat (2 ^ k) = data[i] ^^^ 0 := by
    rw [UInt8.xor_zero]
    exact crc32_byte_injective _ _ same
  have visible : ∀ k < 8, UInt8.ofNat (2 ^ k) ≠ 0 := by decide
  exact visible k low ((UInt8.xor_right_inj data[i]).mp unchanged)

@[simp]
theorem flipBit_length (data : Bytes) (i k : Nat) : (flipBit data i k).length = data.length :=
  List.length_modify _ _ _

/-- For every seed and every buffer below the length cap, the packet checksum is the low half
of the standard check of the seed's little-endian bytes and the buffer, and a flipped bit of
the buffer changes the 32 bits it is cut from.
-/
theorem calcCRC16_standard (p : Bytes) (length seed : UInt32) (bounded : length ≤ 1048576)
    : seededCRC p length seed = crc32 (encode 4 seed.toNat ++ readBytes p length.toNat)
      ∧ calcCRC16 p length seed
        = (crc32 (encode 4 seed.toNat ++ readBytes p length.toNat)).toUInt16
      ∧ ∀ i k, i < length.toNat → k < 8
        → seededCRC (flipBit (readBytes p length.toNat) i k) length seed
          ≠ seededCRC p length seed := by
  have short : ¬ length > 1048576 := UInt32.not_lt.mpr bounded
  refine ⟨seededCRC_eq_crc32 p length seed, ?_, ?_⟩
  · rw [calcCRC16_eq_seededCRC p seed short, seededCRC_eq_crc32]
  · intro i k inside low
    have whole : readBytes (flipBit (readBytes p length.toNat) i k) length.toNat
        = flipBit (readBytes p length.toNat) i k := by
      rw [readBytes_of_le (by simp), List.take_of_length_le (by simp)]
    rw [seededCRC_eq_crc32, seededCRC_eq_crc32, whole]
    exact crc32_flipBit_ne _ _ (by simpa using inside) low

/-- The standard check value, the seed holding the first four of its nine bytes. -/
theorem calcCRC16_standard_check
    : seededCRC [0x35, 0x36, 0x37, 0x38, 0x39] 5 0x34333231 = 0xcbf43926
      ∧ calcCRC16 [0x35, 0x36, 0x37, 0x38, 0x39] 5 0x34333231 = 0x3926
      ∧ seededCRC [0x35, 0x36, 0x37, 0x78, 0x39] 5 0x34333231
        ≠ seededCRC [0x35, 0x36, 0x37, 0x38, 0x39] 5 0x34333231 := by
  obtain ⟨register, checksum, flipped⟩ :=
    calcCRC16_standard [0x35, 0x36, 0x37, 0x38, 0x39] 5 0x34333231 (by decide)
  exact ⟨register.trans (by decide +kernel), checksum.trans (by decide +kernel),
    flipped 3 6 (by decide) (by decide)⟩

-----------------------------------------------------------------------------------------
-- Accepted packets
-----------------------------------------------------------------------------------------

namespace EQProtocolPacket

/-- A packet with room for a checksum is never past the length cap: its length is 16 bits
wide.
-/
theorem calculateCRC_eq_crc32 (p : EQProtocolPacket) (sessionKey : UInt32)
    (room : 2 ≤ p.rawPacketLength)
    : p.calculateCRC sessionKey
      = (crc32 (encode 4 sessionKey.toNat
          ++ readBytes p.packet (p.rawPacketLength - 2).toNat)).toUInt16 := by
  have bounded : (p.rawPacketLength - 2).toUInt32 ≤ 1048576 := by
    rw [UInt32.le_iff_toNat_le, UInt16.toNat_toUInt32]
    exact (Nat.le_of_lt (p.rawPacketLength - 2).toNat_lt).trans (by decide)
  rw [calculateCRC, if_neg (UInt16.not_lt.mpr room), calcCRC16_eq_seededCRC _ _
    (UInt32.not_lt.mpr bounded), seededCRC_eq_crc32, UInt16.toNat_toUInt32]

/-- A packet that passes the test carries the standard check of everything before it. -/
theorem crc_of_passesCRC {p : EQProtocolPacket} {sessionKey : UInt32}
    (carries : p.hasCRC = true) (room : 2 ≤ p.rawPacketLength)
    (valid : p.passesCRC sessionKey = true)
    : p.crc
      = (crc32 (encode 4 sessionKey.toNat
          ++ readBytes p.packet (p.rawPacketLength - 2).toNat)).toUInt16 := by
  have matched : p.calculateCRC sessionKey = p.crc := by
    simpa only [passesCRC, carries, Bool.not_true, Bool.false_or, beq_iff_eq] using valid
  rw [← matched, calculateCRC_eq_crc32 p sessionKey room]

end EQProtocolPacket

end Scry
