import Scry.Library.TextStream

/-! The zone manager: the handlers that give the zone its name, and the signals each of them tells
of it with.
-/

namespace Scry

open TextStream

/-- The rows of the zone table, by id: the short and the long name, where the row has one. -/
abbrev ZoneTable := List (Option (List Char) × Option (List Char))

/-- What `zoneNameFromID` and `zoneLongNameFromID` make of an id without a name. -/
def unknownZone (zoneId : UInt16) : List Char :=
  ['u', 'n', 'k', '_', 'z', 'o', 'n', 'e', '_'] ++ decimal zoneId.toNat

/-- The row of an id, whose instance bits are masked away. -/
def ZoneTable.row (zoneNames : ZoneTable) (zoneId : UInt16)
    : Option (List Char) × Option (List Char) :=
  (zoneNames[(zoneId &&& 0x0fff).toNat]?).getD (none, none)

def zoneNameFromID (zoneNames : ZoneTable) (zoneId : UInt16) : List Char :=
  (zoneNames.row zoneId).1.getD (unknownZone zoneId)

def zoneLongNameFromID (zoneNames : ZoneTable) (zoneId : UInt16) : List Char :=
  (zoneNames.row zoneId).2.getD (unknownZone zoneId)

/-- A zone is unknown where its short name starts with `unk`. -/
def startsWithUnk (name : List Char) : Bool := ['u', 'n', 'k'].isPrefixOf name

/-- A pattern that ends in `$` sees the end of the text, or a last line feed behind it. -/
def atEnd (strip : List Char → List Char) (name : List Char) : List Char :=
  match name.reverse with
  | '\n' :: rest => strip rest.reverse ++ ['\n']
  | _ => strip name

/-- The pattern `_\d+$`. -/
def dropNumber (name : List Char) : List Char :=
  match name.reverse.span Char.isDigit with
  | (_ :: _, '_' :: rest) => rest.reverse
  | _ => name

/-- A pattern of plain characters. -/
def dropEnding (ending name : List Char) : List Char :=
  if ending.isSuffixOf name then name.take (name.length - ending.length) else name

/-- The short name that `zoneNew` makes of the one in the packet. -/
def trimmedZone (name : List Char) : List Char :=
  let name := atEnd dropNumber name
  let name := atEnd (dropEnding ['_', 'p', 'r', 'o', 'g', 'r', 'e', 's', 's']) name
  let name := atEnd (dropEnding ['_', 'i', 'n', 't']) name
  atEnd (dropEnding ['_', 'e', 'r', 'r', 'a', 'n', 'd']) name

example : trimmedZone "guildhall3_int_262".toList = "guildhall3".toList := by decide

inductive ZoneDir
  | client
  | server
  deriving DecidableEq

/-- The signals with a short name. The loaders and the session are connected to no other. -/
inductive ZoneSignal
  | zoneBegin (shortName : List Char)
  | zoneChanged (shortName : List Char)
  | zoneResolved (shortName : List Char)
  | zoneEnd (shortName longName : List Char)

structure ZoneMgr where
  shortZoneName : List Char
  longZoneName : List Char
  zoning : Bool
  deriving DecidableEq

namespace ZoneMgr

def unknown : List Char := ['u', 'n', 'k', 'n', 'o', 'w', 'n']

/-- The constructor. -/
def fresh : ZoneMgr :=
  { shortZoneName := unknown, longZoneName := unknown, zoning := false }

/-- Its `zoneBegin` carries no name. -/
def zoneEntryClient (_ : ZoneMgr) : ZoneMgr × List ZoneSignal :=
  ({ shortZoneName := unknown, longZoneName := unknown, zoning := false }, [])

/-- `zonePlayer`, of the zone in the profile. -/
def zonePlayer (_ : ZoneMgr) (zoneNames : ZoneTable) (zoneId : UInt16)
    : ZoneMgr × List ZoneSignal :=
  let shortName := zoneNameFromID zoneNames zoneId
  ({ shortZoneName := shortName
     longZoneName := zoneLongNameFromID zoneNames zoneId
     zoning := false },
    [.zoneBegin shortName])

/-- `zoneChange`, decoded. Only the signal depends on the direction. -/
def zoneChange (_ : ZoneMgr) (zoneNames : ZoneTable) (zoneId : UInt16) (dir : ZoneDir)
    : ZoneMgr × List ZoneSignal :=
  let shortName := zoneNameFromID zoneNames zoneId
  ({ shortZoneName := shortName
     longZoneName := zoneLongNameFromID zoneNames zoneId
     zoning := true },
    if dir = .server then [.zoneChanged shortName] else [])

/-- The packet's short name is taken where there is none yet, or an unknown one. -/
def takesName (z : ZoneMgr) : Bool := z.shortZoneName.isEmpty || startsWithUnk z.shortZoneName

/-- `zoneNew`, decoded. -/
def zoneNew (z : ZoneMgr) (shortName longName : List Char) : ZoneMgr × List ZoneSignal :=
  let shortName := if z.takesName then trimmedZone shortName else z.shortZoneName
  ({ shortZoneName := shortName, longZoneName := longName, zoning := false },
    [.zoneEnd shortName longName])

def setZoneByName (_ : ZoneMgr) (shortName longName : List Char) : ZoneMgr × List ZoneSignal :=
  ({ shortZoneName := shortName
     longZoneName := if longName.isEmpty then shortName else longName
     zoning := false },
    [.zoneResolved shortName])

end ZoneMgr

/-- A packet that a handler accepts. -/
inductive ZoneMgrOp
  | zoneEntryClient
  | zonePlayer (zoneId : UInt16)
  | zoneChange (zoneId : UInt16) (dir : ZoneDir)
  | zoneNew (shortName longName : List Char)
  | setZoneByName (shortName longName : List Char)

def ZoneMgrOp.run (zoneNames : ZoneTable) (z : ZoneMgr) : ZoneMgrOp → ZoneMgr × List ZoneSignal
  | .zoneEntryClient => z.zoneEntryClient
  | .zonePlayer zoneId => z.zonePlayer zoneNames zoneId
  | .zoneChange zoneId dir => z.zoneChange zoneNames zoneId dir
  | .zoneNew shortName longName => z.zoneNew shortName longName
  | .setZoneByName shortName longName => z.setZoneByName shortName longName

end Scry
