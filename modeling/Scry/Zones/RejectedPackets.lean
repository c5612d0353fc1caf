import Scry.SpawnPoints.SpawnMonitor
import Scry.Spawns.Player
import Scry.Wire.Bytes
import Scry.Zones.ZoneMgr

/-! The zone manager's packets as they arrive: decoded first, and rejected where that fails. The
decoders are parameters, and so is what `lrintf` rounds a `float` to; these are given by their
bits.
-/

namespace Scry

/-- What is read of a `charProfileStruct` for the zone and for the player's own spawn. -/
structure CharProfile where
  name : Bytes
  lastName : Bytes
  zoneId : UInt16
  guildID : UInt32
  guildServerID : UInt32
  x : UInt32
  y : UInt32
  z : UInt32
  profile : PlayerProfile
  deriving DecidableEq

/-- A `zoneChangeStruct`, as decoded. -/
structure ZoneChange where
  name : Bytes
  zoneId : UInt16
  zoneInstance : UInt16
  deriving DecidableEq

/-- A `newZoneStruct`, as decoded. -/
structure NewZone where
  shortName : List Char
  longName : List Char
  safeX : UInt32
  safeY : UInt32
  safeZ : UInt32
  zoneExpMultiplier : UInt32
  deriving DecidableEq

/-- The decoders, which reject what they do not accept. That of the profile also tells how many
bytes it has read.
-/
structure ZoneDecoders where
  playerProfile : Bytes → Option (CharProfile × UInt32)
  zoneChange : Bytes → Option ZoneChange
  newZone : Bytes → Option NewZone
  lrintf : UInt32 → Int64

/-- A packet and its bytes. Those of a `zoneChange` are read as the length of the struct says,
so that what lies behind them may be read, too.
-/
inductive ZoneMgrPacket
  | zonePlayer (data : Bytes)
  | zoneChange (data behind : Bytes) (dir : ZoneDir)
  | zoneNew (data : Bytes)

/-- The signals of the three handlers: those with a short name, the profile, and the change of
zone with its struct, the packet's length and direction.
-/
inductive ZonePacketSignal
  | named (signal : ZoneSignal)
  | playerProfile (player : CharProfile)
  | zoneChanged (zoneChange : ZoneChange) (len : Nat) (dir : ZoneDir)

/-- The zone manager with the bits of its multiplier, and its safe point. -/
structure ZoneState where
  zoneMgr : ZoneMgr
  zoneExpMultiplier : UInt32
  safePoint : EQPoint
  deriving DecidableEq

namespace ZoneState

/-- 0.75, as a `float`. -/
def defaultZoneExperienceMultiplier : UInt32 := 0x3f400000

def sizeofZoneChangeStruct : Nat := 100

variable (d : ZoneDecoders) (zoneNames : ZoneTable)

/-- The profile after `memset`. -/
def blankProfile : CharProfile :=
  { name := [], lastName := [], zoneId := 0, guildID := 0, guildServerID := 0, x := 0, y := 0, z := 0
    profile := { gender := 0, race := 0, class_ := 0, deity := 0, level := 0 } }

/-- What is in the profile then, and what is returned. -/
def fillProfileStruct (player : CharProfile) (data : Bytes) : CharProfile × UInt32 :=
  match d.playerProfile data with
  | none => (player, 0)
  | some (out, bytesConsumed) => (out, bytesConsumed)

/-- `ZoneMgr::zonePlayer`. What `fillProfileStruct` returns is not looked at. -/
def zonePlayer (z : ZoneState) (data : Bytes) : ZoneState × List ZonePacketSignal :=
  let player := (fillProfileStruct d blankProfile data).1
  let result := z.zoneMgr.zonePlayer zoneNames player.zoneId
  ({ z with
      zoneMgr := result.1
      zoneExpMultiplier := defaultZoneExperienceMultiplier },
    result.2.map .named ++ [.playerProfile player])

/-- The bytes that a `zoneChange` is decoded from. -/
def zoneChangeSlice (data behind : Bytes) : Bytes := (data ++ behind).take sizeofZoneChangeStruct

/-- `ZoneMgr::zoneChange`. The signal with the struct does not depend on the direction. -/
def zoneChange (z : ZoneState) (data behind : Bytes) (dir : ZoneDir)
    : ZoneState × List ZonePacketSignal :=
  match d.zoneChange (zoneChangeSlice data behind) with
  | none => (z, [])
  | some out =>
      let result := z.zoneMgr.zoneChange zoneNames out.zoneId dir
      ({ z with
          zoneMgr := result.1
          zoneExpMultiplier := defaultZoneExperienceMultiplier },
        result.2.map .named ++ [.zoneChanged out data.length dir])

/-- `ZoneMgr::zoneNew`. -/
def zoneNew (z : ZoneState) (data : Bytes) : ZoneState × List ZonePacketSignal :=
  match d.newZone data with
  | none => (z, [])
  | some out =>
      let result := z.zoneMgr.zoneNew out.shortName out.longName
      ({ zoneMgr := result.1
         zoneExpMultiplier := out.zoneExpMultiplier
         safePoint :=
          { x := (d.lrintf out.safeX).toInt16
            y := (d.lrintf out.safeY).toInt16
            z := (d.lrintf out.safeZ).toInt16 } },
        result.2.map .named)

def run (z : ZoneState) : ZoneMgrPacket → ZoneState × List ZonePacketSignal
  | .zonePlayer data => z.zonePlayer d zoneNames data
  | .zoneChange data behind dir => z.zoneChange d zoneNames data behind dir
  | .zoneNew data => z.zoneNew d data

end ZoneState

namespace ZoneMgrPacket

variable (d : ZoneDecoders)

/-- The decoder of a packet rejects it. -/
def Rejected : ZoneMgrPacket → Prop
  | zonePlayer data => d.playerProfile data = none
  | zoneChange data behind _ => d.zoneChange (ZoneState.zoneChangeSlice data behind) = none
  | zoneNew data => d.newZone data = none

/-- A packet is no player profile. -/
def NoProfile : ZoneMgrPacket → Prop
  | zonePlayer _ => False
  | zoneChange _ _ _ | zoneNew _ => True

end ZoneMgrPacket

namespace ZoneState

variable {d : ZoneDecoders} {zoneNames : ZoneTable} {packet : ZoneMgrPacket}

-----------------------------------------------------------------------------------------
-- Packets that are accepted
-----------------------------------------------------------------------------------------

/-- What an accepted packet does to the zone's names. -/
def accepted (d : ZoneDecoders) : ZoneMgrPacket → Option ZoneMgrOp
  | .zonePlayer data => (d.playerProfile data).map fun out => .zonePlayer out.1.zoneId
  | .zoneChange data behind dir =>
      (d.zoneChange (zoneChangeSlice data behind)).map fun out => .zoneChange out.zoneId dir
  | .zoneNew data => (d.newZone data).map fun out => .zoneNew out.shortName out.longName

/-- The signals with a short name, of all that a handler emits. -/
def named : List ZonePacketSignal → List ZoneSignal :=
  List.filterMap fun
    | .named signal => some signal
    | .playerProfile _ | .zoneChanged _ _ _ => none

theorem named_map_append (signals : List ZoneSignal) (others : List ZonePacketSignal)
    : named (signals.map .named ++ others) = signals ++ named others := by
  rw [named, List.filterMap_append, List.filterMap_map]
  exact congrArg (· ++ _) List.filterMap_some

/-- An accepted packet does to the names what its operation does, and tells of it likewise. -/
theorem run_accepted {op : ZoneMgrOp} (z : ZoneState) (isOp : accepted d packet = some op)
    : (z.run d zoneNames packet).1.zoneMgr = (op.run zoneNames z.zoneMgr).1
      ∧ named (z.run d zoneNames packet).2 = (op.run zoneNames z.zoneMgr).2 := by
  cases packet with
  | zonePlayer data =>
      obtain ⟨out, decoded, rfl⟩ := Option.map_eq_some_iff.mp isOp
      rw [run, zonePlayer, fillProfileStruct, decoded]
      exact ⟨rfl, rfl⟩
  | zoneChange data behind dir =>
      obtain ⟨out, decoded, rfl⟩ := Option.map_eq_some_iff.mp isOp
      rw [run, zoneChange, decoded]
      exact ⟨rfl, (named_map_append _ _).trans (List.append_nil _)⟩
  | zoneNew data =>
      obtain ⟨out, decoded, rfl⟩ := Option.map_eq_some_iff.mp isOp
      rw [run, zoneNew, decoded]
      exact ⟨rfl, rfl⟩

-----------------------------------------------------------------------------------------
-- Packets that are rejected
-----------------------------------------------------------------------------------------

/-- A rejected profile is taken for one of zeros: the zone becomes that of the number 0. -/
theorem zonePlayer_rejected (z : ZoneState) {data : Bytes} (rejected : d.playerProfile data = none)
    : z.zonePlayer d zoneNames data
      = ({ zoneMgr :=
            { shortZoneName := zoneNameFromID zoneNames 0
              longZoneName := zoneLongNameFromID zoneNames 0
              zoning := false }
           zoneExpMultiplier := defaultZoneExperienceMultiplier
           safePoint := z.safePoint },
          [.named (.zoneBegin (zoneNameFromID zoneNames 0)), .playerProfile blankProfile]) := by
  rw [zonePlayer, fillProfileStruct, rejected]
  rfl

/-- A rejected packet changes nothing and is told of to nobody exactly where it is no profile. -/
theorem run_rejected_iff (zoneNames : ZoneTable) (z : ZoneState)
    (rejected : packet.Rejected d)
    : z.run d zoneNames packet = (z, []) ↔ packet.NoProfile := by
  cases packet with
  | zonePlayer data =>
      rw [run, zonePlayer_rejected z rejected]
      exact iff_of_false (fun same => List.cons_ne_nil _ _ (Prod.ext_iff.mp same).2) id
  | zoneChange data behind dir =>
      refine iff_of_true ?_ trivial
      rw [run, zoneChange, rejected]
  | zoneNew data =>
      refine iff_of_true ?_ trivial
      rw [run, zoneNew, rejected]

/-- Decoders that accept nothing of less than a hundred bytes. -/
def shortRejected : ZoneDecoders where
  playerProfile data := if data.length < 100 then none else some (blankProfile, 100)
  zoneChange data :=
    if data.length < 100 then none else some { name := [], zoneId := 1, zoneInstance := 0 }
  newZone _ := none
  lrintf _ := 0

/-- A zone that is known. -/
def inQeynos : ZoneState :=
  { zoneMgr :=
      { shortZoneName := ['q', 'e', 'y', 'n', 'o', 's'], longZoneName := ['Q'], zoning := false }
    zoneExpMultiplier := defaultZoneExperienceMultiplier
    safePoint := { x := 0, y := 0, z := 0 } }

theorem run_rejected_iff_truncated
    : (ZoneMgrPacket.zonePlayer [1, 2]).Rejected shortRejected
      ∧ (inQeynos.run shortRejected [] (.zonePlayer [1, 2]) = (inQeynos, [])
        ↔ (ZoneMgrPacket.zonePlayer [1, 2]).NoProfile) :=
  ⟨rfl, run_rejected_iff [] inQeynos rfl⟩

/-- A truncated profile takes the player out of the zone. -/
theorem not_run_rejected
    : ¬ ∀ packet, packet.Rejected shortRejected →
        inQeynos.run shortRejected [] packet = (inQeynos, []) := by
  intro unchanged
  have same := congrArg (fun result => result.1.zoneMgr.shortZoneName)
    (unchanged (.zonePlayer [1, 2]) rfl)
  exact absurd same (by decide)

end ZoneState

end Scry
