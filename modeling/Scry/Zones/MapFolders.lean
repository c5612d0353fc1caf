import Scry.Library.Search
import Scry.Zones.ZoneData

/-! The folders that a zone's map files are looked for in: those of the active package under each
root, and the roots themselves.
-/

namespace Scry

open TextStream

/-- The files that there are, and the settings that say where maps are looked for. The two folders
are the data location manager's, the user's and the installed one.
-/
structure MapFolders where
  fileExists : List Char → Bool
  mapsDir : List Char
  dataLocationMgr : Option (List Char × List Char)
  mapPackage : List Char

/-- A map file and the folder in which it was found. -/
structure LocatedMap where
  dir : List Char
  fileName : List Char
  deriving DecidableEq

def LocatedMap.path (f : LocatedMap) : List Char := f.dir ++ '/' :: f.fileName

namespace MapFolders

def map : List Char := ['.', 'm', 'a', 'p']

def txt : List Char := ['.', 't', 'x', 't']

variable (l : MapFolders)

def has (fileName dir : List Char) : Bool := l.fileExists (dir ++ '/' :: fileName)

def mapSearchPaths : List (List Char) :=
  if l.mapsDir ≠ [] then [l.mapsDir]
  else
    match l.dataLocationMgr with
    | none => []
    | some (user, pkg) => [user, pkg]

/-- The folders of the active package. -/
def packageDirs : List (List Char) :=
  if l.mapPackage ≠ [] ∧ l.mapPackage ≠ ['d', 'e', 'f', 'a', 'u', 'l', 't'] then
    l.mapSearchPaths.map (· ++ '/' :: l.mapPackage)
  else []

def dirs : List (List Char) := l.packageDirs ++ l.mapSearchPaths

def locateMap (fileName : List Char) : Option LocatedMap :=
  (l.dirs.find? (l.has fileName)).map fun dir => { dir := dir, fileName := fileName }

/-- The name whose files are loaded. An instance without a map takes that of its zone. -/
def mapZoneName (shortZoneName : List Char) : List Char :=
  let base := shortZoneName.takeWhile (· ≠ '_')
  if l.locateMap (shortZoneName ++ map) = none ∧ l.locateMap (shortZoneName ++ txt) = none
    ∧ base ≠ shortZoneName ∧ base ≠ [] then base
  else shortZoneName

def numbered (name : List Char) (i : Nat) (extension : List Char) : List Char :=
  name ++ '_' :: decimal i ++ extension

def layers (name extension : List Char) : List LocatedMap :=
  (List.range' 1 9).filterMap fun i => l.locateMap (numbered name i extension)

/-- The files that `DaemonApp::loadZoneMap` loads: the first one replaces what there was, the
others are drawn over it.
-/
def loadZoneMap (shortZoneName : List Char) : List LocatedMap :=
  if shortZoneName.isEmpty then []
  else
    let name := l.mapZoneName shortZoneName
    match l.locateMap (name ++ map) with
    | some baseMap => baseMap :: l.layers name map
    | none =>
        match l.locateMap (name ++ txt) with
        | some baseTxt => baseTxt :: l.layers name txt
        | none => []

/-- A folder has a base file of a zone. -/
def hasBase (name dir : List Char) : Bool := l.has (name ++ map) dir || l.has (name ++ txt) dir

/-- Where a zone's map should come from: the first folder of the package that has it, or the one
its base file comes from.
-/
def place (shortZoneName : List Char) : Option (List Char) :=
  (l.packageDirs.find? (l.hasBase (l.mapZoneName shortZoneName))).or
    ((l.loadZoneMap shortZoneName).head?.map LocatedMap.dir)

/-- All files of a zone come from one place. -/
def OnePlace (shortZoneName : List Char) : Prop :=
  ∀ file ∈ l.loadZoneMap shortZoneName, some file.dir = l.place shortZoneName

/-- The format that is loaded. -/
def extension (name : List Char) : List Char :=
  if l.dirs.any (l.has (name ++ map)) then map else txt

/-- The files of a name lie so that none is taken from another place than the base file: no folder
of the package that is searched before has a base file, no folder that is searched before has a
layer, and one that is searched after has none that is missing with the base file.
-/
def Tidy (name : List Char) : Prop :=
  ∀ before dir after,
    Search.First (l.has (name ++ l.extension name)) l.dirs before dir after →
      (∀ d ∈ before, d ∈ l.packageDirs → l.hasBase name d = false)
      ∧ ∀ i ∈ List.range' 1 9,
        (∀ d ∈ before, l.has (numbered name i (l.extension name)) d = false)
        ∧ ∀ d ∈ after, l.has (numbered name i (l.extension name)) d = true →
          l.has (numbered name i (l.extension name)) dir = true

variable {l} {name shortZoneName dir : List Char}

-----------------------------------------------------------------------------------------
-- The base file and its layers
-----------------------------------------------------------------------------------------

theorem locateMap_eq_none_iff {fileName : List Char}
    : l.locateMap fileName = none ↔ l.dirs.any (l.has fileName) = false := by
  rw [locateMap, Option.map_eq_none_iff, List.find?_eq_none, List.any_eq_false]

/-- The files that are loaded are the base file in the format that is found, if it is, and its
layers.
-/
theorem loadZoneMap_eq (named : shortZoneName ≠ [])
    : l.loadZoneMap shortZoneName
      = let name := l.mapZoneName shortZoneName
        match l.locateMap (name ++ l.extension name) with
        | some base => base :: l.layers name (l.extension name)
        | none => [] := by
  have named : shortZoneName.isEmpty = false := List.isEmpty_eq_false_iff.mpr named
  rw [loadZoneMap, named, if_neg Bool.false_ne_true]
  dsimp only
  cases found : l.locateMap (l.mapZoneName shortZoneName ++ map) with
  | some base =>
      have isMap : l.extension (l.mapZoneName shortZoneName) = map := by
        rw [extension, if_pos]
        by_contra none
        rw [Bool.not_eq_true, ← locateMap_eq_none_iff, found] at none
        cases none
      rw [isMap, found]
  | none =>
      have isTxt : l.extension (l.mapZoneName shortZoneName) = txt := by
        rw [extension, locateMap_eq_none_iff.mp found, if_neg Bool.false_ne_true]
      rw [isTxt]

theorem hasBase_of_has (has : l.has (name ++ l.extension name) dir = true)
    : l.hasBase name dir = true := by
  rw [extension] at has
  rw [hasBase, Bool.or_eq_true]
  split at has
  · exact .inl has
  · exact .inr has

/-- With the base file in a folder, all files come from one place exactly where the package has no
base file elsewhere that is found first, and every layer is found in that folder or nowhere.
-/
theorem onePlace_iff_of_first {before after : List (List Char)}
    (named : shortZoneName ≠ []) (name_eq : l.mapZoneName shortZoneName = name)
    (first : Search.First (l.has (name ++ l.extension name)) l.dirs before dir after)
    : l.OnePlace shortZoneName
      ↔ (∀ d, l.packageDirs.find? (l.hasBase name) = some d → d = dir)
        ∧ ∀ i ∈ List.range' 1 9, ∀ d,
          l.dirs.find? (l.has (numbered name i (l.extension name))) = some d → d = dir := by
  have files : l.loadZoneMap shortZoneName
      = { dir := dir, fileName := name ++ l.extension name }
        :: l.layers name (l.extension name) := by
    rw [loadZoneMap_eq named, name_eq]
    dsimp only
    rw [locateMap, first.find?]
    rfl
  rw [OnePlace, place, files, name_eq, List.forall_mem_cons]
  dsimp only [List.head?_cons, Option.map_some]
  have inPlace : some dir = (l.packageDirs.find? (l.hasBase name)).or (some dir)
      ↔ ∀ d, l.packageDirs.find? (l.hasBase name) = some d → d = dir := by
    cases l.packageDirs.find? (l.hasBase name) with
    | none => simp
    | some d => simp [eq_comm]
  rw [inPlace]
  refine and_congr_right fun package => ?_
  rw [← inPlace.mpr package, layers]
  constructor
  · intro same i mem d found
    have located : l.locateMap (numbered name i (l.extension name))
        = some { dir := d, fileName := numbered name i (l.extension name) } := by
      rw [locateMap, found, Option.map_some]
    exact Option.some.inj (same _ (List.mem_filterMap.mpr ⟨i, mem, located⟩))
  · intro only file mem
    obtain ⟨i, isLayer, located⟩ := List.mem_filterMap.mp mem
    obtain ⟨d, found, rfl⟩ := Option.map_eq_some_iff.mp located
    exact congrArg some (only i isLayer d found)

/-- All files of a zone come from one place exactly where they lie so. -/
theorem onePlace_iff (l : MapFolders) (shortZoneName : List Char)
    : l.OnePlace shortZoneName
      ↔ shortZoneName = [] ∨ l.Tidy (l.mapZoneName shortZoneName) := by
  by_cases named : shortZoneName = []
  · refine iff_of_true ?_ (.inl named)
    intro file mem
    rw [named] at mem
    cases mem
  · rw [or_iff_right named]
    constructor
    · intro onePlace before dir after first
      obtain ⟨package, numbered⟩ := (onePlace_iff_of_first named rfl first).mp onePlace
      exact ⟨(first.initial_iff rfl (hasBase_of_has first.has)).mp package,
        fun i mem => first.only_iff.mp (numbered i mem)⟩
    · intro tidy
      cases found : l.locateMap (l.mapZoneName shortZoneName
          ++ l.extension (l.mapZoneName shortZoneName)) with
      | none =>
          intro file mem
          rw [loadZoneMap_eq named] at mem
          dsimp only at mem
          rw [found] at mem
          cases mem
      | some base =>
          obtain ⟨dir, found, -⟩ := Option.map_eq_some_iff.mp found
          obtain ⟨before, after, first⟩ := Search.exists_first found
          obtain ⟨package, numbered⟩ := tidy before dir after first
          exact (onePlace_iff_of_first named rfl first).mpr
            ⟨(first.initial_iff rfl (hasBase_of_has first.has)).mpr package,
              fun i mem => first.only_iff.mpr (numbered i mem)⟩

/-- The package has a base file, and the root a layer that the package lacks. -/
def mixed : MapFolders where
  fileExists path :=
    path = ['/', 'm', '/', 'p', '/', 'q', '.', 'm', 'a', 'p']
      || path = ['/', 'm', '/', 'q', '_', '1', '.', 'm', 'a', 'p']
  mapsDir := ['/', 'm']
  dataLocationMgr := none
  mapPackage := ['p']

theorem not_onePlace : ¬ mixed.OnePlace ['q'] := by
  intro onePlace
  have loaded : { dir := ['/', 'm'], fileName := ['q', '_', '1', '.', 'm', 'a', 'p'] }
      ∈ mixed.loadZoneMap ['q'] := by decide
  exact absurd (onePlace _ loaded) (by decide)

-----------------------------------------------------------------------------------------
-- What is loaded for the zone
-----------------------------------------------------------------------------------------

section ZoneData

variable {G R : Type} {files : ZoneFiles G R}

theorem layers_eq
    (locates : ∀ fileName, files.locateMap fileName = (l.locateMap fileName).map LocatedMap.path)
    (base : LocatedMap) (name extension : List Char)
    : files.layers name base.path extension
      = (base :: l.layers name extension).map LocatedMap.path := by
  rw [ZoneFiles.layers, List.map_cons, layers, List.map_filterMap]
  simp only [locates, numbered]

theorem mapFiles_eq
    (locates : ∀ fileName, files.locateMap fileName = (l.locateMap fileName).map LocatedMap.path)
    (name : List Char)
    : files.mapFiles name
      = List.map LocatedMap.path
        (match l.locateMap (name ++ map) with
        | some baseMap => baseMap :: l.layers name map
        | none =>
            match l.locateMap (name ++ txt) with
            | some baseTxt => baseTxt :: l.layers name txt
            | none => []) := by
  rw [ZoneFiles.mapFiles, locates, locates, ← map, ← txt]
  cases l.locateMap (name ++ map) with
  | some baseMap => exact layers_eq locates baseMap name map
  | none =>
      cases l.locateMap (name ++ txt) with
      | some baseTxt => exact layers_eq locates baseTxt name txt
      | none => rfl

/-- With these folders, the files that are loaded for a zone are those of its paths. -/
theorem zoneMapFiles_eq
    (locates : ∀ fileName, files.locateMap fileName = (l.locateMap fileName).map LocatedMap.path)
    (shortZoneName : List Char)
    : files.zoneMapFiles shortZoneName = (l.loadZoneMap shortZoneName).map LocatedMap.path := by
  have own : (files.mapFiles shortZoneName).isEmpty = true
      ↔ l.locateMap (shortZoneName ++ map) = none ∧ l.locateMap (shortZoneName ++ txt) = none := by
    rw [mapFiles_eq locates]
    cases l.locateMap (shortZoneName ++ map) <;> cases l.locateMap (shortZoneName ++ txt) <;> simp
  rw [ZoneFiles.zoneMapFiles, loadZoneMap]
  split
  · rfl
  · dsimp only
    rw [← mapFiles_eq locates, mapZoneName]
    simp only [own, List.isEmpty_iff, and_assoc]
    split <;> rfl

end ZoneData

end MapFolders

end Scry
