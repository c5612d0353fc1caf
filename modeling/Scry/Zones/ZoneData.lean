import Scry.Library.Machine
import Scry.Zones.ZoneMgr

/-! What is loaded for a zone: the map and the overlay of filter rules, which follow the signals
of the zone manager, and the envelopes that a session makes of them.
-/

namespace Scry

open TextStream

/-- The files that zones have: where a map file is, the geometry that a list of them comes to, the
rules file that is found for a name, what it holds, and where one is written.
-/
structure ZoneFiles (G R : Type) where
  locateMap : List Char → Option (List Char)
  geometry : List (List Char) → Option G
  findExistingFile : List Char → List Char
  load : List Char → R
  findWriteFile : List Char → List Char

/-- The rules that apply in one zone, of `FilterMgr`. `zone` is no field of the source: it is the
name that they were last loaded for.
-/
structure ZoneFilters (R : Type) where
  zone : List Char
  zoneFilterFile : List Char
  zoneFilters : R

/-- The map. `zone` is no field of the source: it is the name that it was last loaded for. -/
structure MapData (G : Type) where
  zone : List Char
  geometry : Option G

/-- A snapshot or a change of zone, as far as the zone goes. -/
structure ZoneView (G : Type) where
  zoneShort : List Char
  zoneLong : List Char
  geometry : Option G

/-- What the last component of a path is. -/
def fileName (path : List Char) : List Char := (path.reverse.takeWhile (· ≠ '/')).reverse

namespace ZoneFiles

variable {G R : Type} (files : ZoneFiles G R)

/-- The files of one format: the base and its numbered layers. -/
def layers (base : List Char) (file : List Char) (extension : List Char)
    : List (List Char) :=
  file :: (List.range' 1 9).filterMap fun i =>
    files.locateMap (base ++ '_' :: decimal i ++ extension)

/-- The map files of a name, none where it has none. -/
def mapFiles (name : List Char) : List (List Char) :=
  match files.locateMap (name ++ ['.', 'm', 'a', 'p']) with
  | some file => files.layers name file ['.', 'm', 'a', 'p']
  | none =>
      match files.locateMap (name ++ ['.', 't', 'x', 't']) with
      | some file => files.layers name file ['.', 't', 'x', 't']
      | none => []

/-- The files `loadZoneMap` loads: a name without a map falls back to what is before its first
underscore, unless that is nothing.
-/
def zoneMapFiles (shortZoneName : List Char) : List (List Char) :=
  if shortZoneName.isEmpty then []
  else
    let base := shortZoneName.takeWhile (· ≠ '_')
    let own := files.mapFiles shortZoneName
    if own.isEmpty ∧ base ≠ shortZoneName ∧ ¬ base.isEmpty then files.mapFiles base else own

/-- The geometry of a zone, none without a map file. -/
def zoneGeometry (shortZoneName : List Char) : Option G :=
  match files.zoneMapFiles shortZoneName with
  | [] => none
  | first :: rest => files.geometry (first :: rest)

/-- The file with a zone's rules. -/
def rulesFile (shortZoneName : List Char) : List Char :=
  files.findExistingFile (shortZoneName ++ ['.', 'x', 'm', 'l'])

def loadZoneMap (shortZoneName : List Char) : MapData G :=
  { zone := shortZoneName, geometry := files.zoneGeometry shortZoneName }

/-- `FilterMgr::loadZone`. -/
def loadZone (shortZoneName : List Char) : ZoneFilters R :=
  { zone := shortZoneName
    zoneFilterFile := files.rulesFile shortZoneName
    zoneFilters := files.load (files.rulesFile shortZoneName) }

/-- `saveZoneFilters`: the file that is written, and the rules that go into it. -/
def saveZoneFilters (f : ZoneFilters R) : List Char × R :=
  (files.findWriteFile (fileName f.zoneFilterFile), f.zoneFilters)

end ZoneFiles

/-- A change that a client makes to the rules of the zone. -/
def ZoneFilters.edit {R : Type} (f : ZoneFilters R) (change : R → R) : ZoneFilters R :=
  { f with zoneFilters := change f.zoneFilters }

/-- The zone manager with what is loaded for its zone and a session that has subscribed; `sent` is
what this sent in the last operation.
-/
structure ZoneWorld (G R : Type) where
  zoneMgr : ZoneMgr
  mapData : MapData G
  filterMgr : ZoneFilters R
  lastSnapshotZone : List Char
  sent : List (ZoneView G)

namespace ZoneWorld

variable {G R : Type} (files : ZoneFiles G R) (zoneNames : ZoneTable)

/-- The snapshot that goes out now, where one does. -/
def snapshot (w : ZoneWorld G R) : ZoneView G :=
  { zoneShort := w.zoneMgr.shortZoneName
    zoneLong := w.zoneMgr.longZoneName
    geometry := w.mapData.geometry }

def sendSnapshot (w : ZoneWorld G R) : ZoneWorld G R :=
  { w with lastSnapshotZone := w.zoneMgr.shortZoneName, sent := w.sent ++ [w.snapshot] }

def onZoneBegin (w : ZoneWorld G R) (shortName : List Char) : ZoneWorld G R :=
  { w with
    sent := w.sent
      ++ [{ zoneShort := shortName
            zoneLong := w.zoneMgr.longZoneName
            geometry := w.mapData.geometry }] }

def onZoneChanged (w : ZoneWorld G R) (shortName : List Char) : ZoneWorld G R :=
  let w := w.onZoneBegin shortName
  if w.zoneMgr.shortZoneName ≠ w.lastSnapshotZone then w.sendSnapshot else w

/-- Both loaders, which are connected before any session. -/
def load (w : ZoneWorld G R) (shortName : List Char) : ZoneWorld G R :=
  { w with mapData := files.loadZoneMap shortName, filterMgr := files.loadZone shortName }

/-- The slots of a signal. Nothing here is connected to `zoneEnd`. -/
def slots (w : ZoneWorld G R) : ZoneSignal → ZoneWorld G R
  | .zoneBegin shortName => (w.load files shortName).onZoneBegin shortName
  | .zoneChanged shortName => (w.load files shortName).onZoneChanged shortName
  | .zoneResolved shortName => (w.load files shortName).onZoneChanged shortName
  | .zoneEnd _ _ => w

/-- One packet. -/
def step (op : ZoneMgrOp) (w : ZoneWorld G R) : ZoneWorld G R :=
  let result := op.run zoneNames w.zoneMgr
  result.2.foldl (slots files) { w with zoneMgr := result.1, sent := [] }

/-- After `DaemonApp::start`, with a session that subscribes then. -/
def start : ZoneWorld G R :=
  sendSnapshot
    { zoneMgr := .fresh
      mapData := files.loadZoneMap ZoneMgr.unknown
      filterMgr := files.loadZone ZoneMgr.unknown
      lastSnapshotZone := []
      sent := [] }

/-- Map and rules are those of the zone with the name, whatever is made of them: in a snapshot,
and in an edit that is saved.
-/
structure LoadedFor (w : ZoneWorld G R) (name : List Char) : Prop where
  map : w.mapData.zone = name
  overlay : w.filterMgr.zone = name
  geometry : w.mapData.geometry = files.zoneGeometry name
  rules
    : ∀ change : R → R,
        files.saveZoneFilters (w.filterMgr.edit change)
          = (files.findWriteFile (fileName (files.rulesFile name)),
              change (files.load (files.rulesFile name)))

/-- Where the zone is known, map and rules are those of it; and every envelope that was sent for a
known zone carries the geometry of that zone.
-/
structure Follows (w : ZoneWorld G R) : Prop where
  loaded
    : startsWithUnk w.zoneMgr.shortZoneName = false →
        w.LoadedFor files w.zoneMgr.shortZoneName
  sent
    : ∀ view ∈ w.sent, startsWithUnk view.zoneShort = false →
        view.geometry = files.zoneGeometry view.zoneShort

/-- A name that is taken without a loader's signal is unknown, or the one that map and rules were
last loaded for.
-/
def Quiet (w : ZoneWorld G R) (name : List Char) : Prop :=
  startsWithUnk name = true ∨ w.mapData.zone = name

/-- What a packet must find: a `zoneChange` of the client and a `zoneNew` that takes its name move
the player nowhere else.
-/
def KeepsZone (w : ZoneWorld G R) : ZoneMgrOp → Prop
  | .zoneChange zoneId dir => dir = .server ∨ w.Quiet (zoneNameFromID zoneNames zoneId)
  | .zoneNew shortName _ => w.zoneMgr.takesName = true → w.Quiet (trimmedZone shortName)
  | .zoneEntryClient | .zonePlayer _ | .setZoneByName _ _ => True

variable {files : ZoneFiles G R} {zoneNames : ZoneTable} {w : ZoneWorld G R}

/-- Map and rules are what was loaded for one name. -/
structure Loaded (files : ZoneFiles G R) (w : ZoneWorld G R) : Prop where
  map : w.mapData = files.loadZoneMap w.mapData.zone
  overlay : w.filterMgr = files.loadZone w.mapData.zone

theorem loadedFor_iff (loaded : w.Loaded files) (name : List Char)
    : w.LoadedFor files name ↔ w.mapData.zone = name := by
  constructor
  · exact fun loadedFor => loadedFor.map
  · rintro rfl
    obtain ⟨map, overlay⟩ := loaded
    refine ⟨rfl, congrArg ZoneFilters.zone overlay, congrArg MapData.geometry map, ?_⟩
    intro change
    rw [overlay]
    rfl

/-- A zone that keeps its name keeps what is loaded for it. -/
theorem quiet_of_follows (follows : w.Follows files) : w.Quiet w.zoneMgr.shortZoneName := by
  cases known : startsWithUnk w.zoneMgr.shortZoneName with
  | true => exact Or.inl known
  | false => exact Or.inr (follows.loaded known).map

/-- Apart from the envelopes, the property is that the name came quietly. -/
theorem follows_iff (loaded : w.Loaded files)
    (sent
      : ∀ view ∈ w.sent, startsWithUnk view.zoneShort = false →
          view.geometry = files.zoneGeometry view.zoneShort)
    : w.Follows files ↔ w.Quiet w.zoneMgr.shortZoneName := by
  refine ⟨quiet_of_follows, fun quiet => ⟨fun known => ?_, sent⟩⟩
  apply (loadedFor_iff loaded _).mpr
  exact quiet.resolve_left (Bool.eq_false_iff.mp known)

theorem loaded_load (w : ZoneWorld G R) (name : List Char) : (w.load files name).Loaded files :=
  ⟨rfl, rfl⟩

/-- The loaders run before the session's slot, so that a change of zone carries the zone's map. -/
theorem follows_onZoneBegin (files : ZoneFiles G R) (silent : w.sent = [])
    : ((w.load files w.zoneMgr.shortZoneName).onZoneBegin w.zoneMgr.shortZoneName).Follows
        files := by
  refine (follows_iff ⟨rfl, rfl⟩ ?_).mpr (Or.inr rfl)
  intro view sent _
  simp only [onZoneBegin, load, silent, List.nil_append] at sent
  obtain rfl := List.mem_singleton.mp sent
  rfl

theorem follows_onZoneChanged (files : ZoneFiles G R) (silent : w.sent = [])
    : ((w.load files w.zoneMgr.shortZoneName).onZoneChanged w.zoneMgr.shortZoneName).Follows
        files := by
  have begun := follows_onZoneBegin files silent
  rw [onZoneChanged]
  split
  · refine ⟨fun known => ?_, ?_⟩
    · obtain ⟨map, overlay, geometry, rules⟩ := begun.loaded known
      exact ⟨map, overlay, geometry, rules⟩
    intro view sent known
    rcases List.mem_append.mp sent with early | last
    · exact begun.sent view early known
    · obtain rfl := List.mem_singleton.mp last
      rfl
  · exact begun

theorem loaded_onZoneChanged (loaded : w.Loaded files) (name : List Char)
    : (w.onZoneChanged name).Loaded files := by
  obtain ⟨map, overlay⟩ := loaded
  rw [onZoneChanged]
  split
  · exact ⟨map, overlay⟩
  · exact ⟨map, overlay⟩

theorem loaded_step (op : ZoneMgrOp) (loaded : w.Loaded files)
    : (step files zoneNames op w).Loaded files := by
  obtain ⟨map, overlay⟩ := loaded
  cases op with
  | zoneEntryClient => exact ⟨map, overlay⟩
  | zonePlayer zoneId => exact ⟨rfl, rfl⟩
  | zoneChange zoneId dir =>
      cases dir with
      | client => exact ⟨map, overlay⟩
      | server => exact loaded_onZoneChanged (loaded_load _ _) _
  | zoneNew shortName longName => exact ⟨map, overlay⟩
  | setZoneByName shortName longName => exact loaded_onZoneChanged (loaded_load _ _) _

theorem follows_step (op : ZoneMgrOp) (loaded : w.Loaded files) (follows : w.Follows files)
    : (step files zoneNames op w).Follows files ↔ w.KeepsZone zoneNames op := by
  obtain ⟨map, overlay⟩ := loaded
  have silent {after : ZoneMgr}
      : ({ w with zoneMgr := after, sent := [] } : ZoneWorld G R).Follows files
        ↔ w.Quiet after.shortZoneName :=
    follows_iff ⟨map, overlay⟩ (by simp)
  cases op with
  | zoneEntryClient => exact iff_of_true (silent.mpr (Or.inl rfl)) trivial
  | zonePlayer zoneId => exact iff_of_true (follows_onZoneBegin files rfl) trivial
  | zoneChange zoneId dir =>
      cases dir with
      | client =>
          have apart : ZoneDir.client ≠ .server := by decide
          exact silent.trans (or_iff_right apart).symm
      | server => exact iff_of_true (follows_onZoneChanged files rfl) (Or.inl rfl)
  | zoneNew shortName longName =>
      refine silent.trans ?_
      cases takes : w.zoneMgr.takesName with
      | true => simp [ZoneMgrOp.run, ZoneMgr.zoneNew, KeepsZone, takes]
      | false =>
          refine iff_of_true ?_ fun absurdly => ?_
          · simpa [ZoneMgrOp.run, ZoneMgr.zoneNew, takes] using quiet_of_follows follows
          · exact Bool.noConfusion (takes.symm.trans absurdly)
  | setZoneByName shortName longName => exact iff_of_true (follows_onZoneChanged files rfl) trivial

theorem loaded_start (files : ZoneFiles G R) : (start files).Loaded files := ⟨rfl, rfl⟩

theorem follows_start (files : ZoneFiles G R) : (start files).Follows files := by
  refine (follows_iff (loaded_start files) ?_).mpr (Or.inl rfl)
  intro view sent _
  obtain rfl := List.mem_singleton.mp sent
  rfl

/-- In a run, the data of the zone follows it, in every state between two packets, exactly where
each packet that takes a name without a loader's signal finds it loaded, or takes an unknown one.
-/
theorem zone_data_follows_iff (files : ZoneFiles G R) (zoneNames : ZoneTable)
    (ops : List ZoneMgrOp)
    : Machine.Always (step files zoneNames) (Follows files) (start files) ops
      ↔ Machine.Permits (step files zoneNames) (KeepsZone zoneNames) (start files) ops :=
  Machine.always_iff_permits (loaded_start files) (follows_start files)
    (fun _ op loaded => loaded_step op loaded)
    fun _ op loaded follows => follows_step op loaded follows

/-- The first rows of the zone table. -/
def qeynosZones : ZoneTable :=
  [(none, none),
    (some ['q', 'e', 'y', 'n', 'o', 's'],
      some ['S', 'o', 'u', 't', 'h', ' ', 'Q', 'e', 'y', 'n', 'o', 's']),
    (some ['q', 'e', 'y', 'n', 'o', 's', '2'],
      some ['N', 'o', 'r', 't', 'h', ' ', 'Q', 'e', 'y', 'n', 'o', 's'])]

/-- No map file, and a rules file for every name. -/
def plainFiles : ZoneFiles Unit Unit where
  locateMap := fun _ => none
  geometry := fun _ => none
  findExistingFile := fun name => '/' :: name
  load := fun _ => ()
  findWriteFile := fun name => '/' :: name

/-- The player asks to go from South to North Qeynos: the zone has the new name, map and rules are
those of the old one.
-/
theorem zone_data_stays_behind
    : ¬ ∀ (G R : Type) (files : ZoneFiles G R) (zoneNames : ZoneTable) (ops : List ZoneMgrOp),
        Machine.Always (step files zoneNames) (Follows files) (start files) ops := by
  intro always
  have follows :=
    (always Unit Unit plainFiles qeynosZones [.zonePlayer 1, .zoneChange 2 .client]).2.2
  exact absurd (follows.loaded (by decide)).map (by decide)

end ZoneWorld
end Scry
