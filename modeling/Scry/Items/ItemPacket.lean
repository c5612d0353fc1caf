import Mathlib.Data.Fintype.Pi
import Scry.Library.Binary
import Scry.Library.Utf8
import Scry.Wire.Bytes

/-! The item of a packet: a wrapper that tells where it is, two names, and what it is worth. -/

namespace Scry

open Binary

def itemStatCount : Nat := 7

def itemResCount : Nat := 5

structure ItemTemplate where
  itemName : List Char := []
  loreName : List Char := []
  itemId : UInt32 := 0
  slotBitmask : UInt32 := 0
  flags : UInt32 := 0
  weight : Single := 0
  hp : Int32 := 0
  mana : Int32 := 0
  endurance : Int32 := 0
  ac : Int32 := 0
  stats : Fin itemStatCount → Int8 := fun _ => 0
  resists : Fin itemResCount → Int8 := fun _ => 0
  corruption : Int8 := 0
  packetType : UInt32 := 0
  mainSlot : UInt32 := 0
  subSlot : UInt16 := 0
  stackCount : UInt32 := 0
  deriving DecidableEq

def readU32LE (p : Bytes) : UInt32 :=
  (byteAt p 0).toUInt32 ||| (byteAt p 1).toUInt32 <<< 8
    ||| (byteAt p 2).toUInt32 <<< 16 ||| (byteAt p 3).toUInt32 <<< 24

def readI32LE (p : Bytes) : Int32 := (readU32LE p).toInt32

/-- The first capital letter from `start` on behind a zero byte; never the last byte. -/
def findNameStart (data : Bytes) (start : Nat) : Option Nat :=
  (List.range' start (data.length - 1 - start)).find? fun i =>
    0x41 ≤ byteAt data i && byteAt data i ≤ 0x5a && 0 < i && byteAt data (i - 1) == 0

def findNul (data : Bytes) (start : Nat) : Option Nat :=
  (List.range' start (data.length - start)).find? fun i => byteAt data i == 0

/-- The bytes from one offset to another. -/
def slice (data : Bytes) (start stop : Nat) : Bytes := (data.drop start).take (stop - start)

def kHeaderProbeStart : Nat := 0x40

def kParsedItemMinSize : Nat := 63

/-- What lies behind the names; `wrapper` has what lies before them, and the names. -/
def parsedItem (wrapper : ItemTemplate) (p : Bytes) : ItemTemplate :=
  { wrapper with
    itemId := readU32LE (p.drop 8)
    weight := .nearest ((.nearest (readU32LE (p.drop 12)).toNat : Single).value / 10)
    flags := readU32LE (p.drop 16)
    slotBitmask := readU32LE (p.drop 20)
    resists := fun i => (byteAt p (34 + i)).toInt8
    corruption := (byteAt p 39).toInt8
    stats := fun i => (byteAt p (40 + i)).toInt8
    hp := readI32LE (p.drop 47)
    mana := readI32LE (p.drop 51)
    endurance := readI32LE (p.drop 55)
    ac := readI32LE (p.drop 59) }

def parseItemPacket (data : Bytes) : Option ItemTemplate :=
  if data.length < kHeaderProbeStart then none
  else if byteAt data 20 ≠ 0 then none
  else do
    let nameStart ← findNameStart data kHeaderProbeStart
    let firstNul ← findNul data nameStart
    let loreStart := firstNul + 1
    let secondNul ← findNul data loreStart
    let postName := secondNul + 1
    if postName + kParsedItemMinSize > data.length then none
    else
      some
        (parsedItem
          { packetType := readU32LE data
            stackCount := readU32LE (data.drop 21)
            mainSlot := readU32LE (data.drop 25)
            subSlot := (byteAt data 29).toUInt16 ||| (byteAt data 30).toUInt16 <<< 8
            itemName := Utf8.fromLatin1 (slice data nameStart firstNul)
            loreName := Utf8.fromLatin1 (slice data loreStart secondNul) }
          (data.drop postName))

end Scry
