import Mathlib.Data.List.Basic

/-! Which file the spawn points of a zone are loaded from and saved to. The name of the zone
comes from the wire; it becomes a pattern that is matched with the files of a directory, and a
part of a path where none matches.
-/

namespace Scry

/-- A file as it was found: an entry of a directory, or `QFileInfo(dir, fileName)`. -/
inductive FoundFile
  | entry (dir name : List Char)
  | path (dir fileName : List Char)
  deriving DecidableEq

namespace FoundFile

def dir : FoundFile → List Char
  | entry dir _ | path dir _ => dir

def name : FoundFile → List Char
  | entry _ name | path _ name => name

def append (suffix : List Char) : FoundFile → FoundFile
  | entry dir name => entry dir (name ++ suffix)
  | path dir fileName => path dir (fileName ++ suffix)

/-- A name that leads to a file in a directory when it is put behind it: it has no separator, is
neither the directory nor the one above, and no path from the root or to a resource.
-/
structure Single (fileName : List Char) : Prop where
  noSeparator : '/' ∉ fileName
  noResource : fileName.head? ≠ some ':'
  noDots : fileName ≠ [] ∧ fileName ≠ ['.'] ∧ fileName ≠ ['.', '.']

/-- A file is a direct child of a directory. -/
def ChildOf (resolved : List Char) : FoundFile → Prop
  | entry dir _ => dir = resolved
  | path dir fileName => dir = resolved ∧ Single fileName

end FoundFile

/-- What the data location manager sees of the file system, for the directories of spawn points,
and what regular expressions and letters are alike.
-/
structure DataLocationMgr where
  userData : List Char
  pkgData : List Char
  legacyUserData : List Char
  /-- The directory of a root, if both exist. -/
  cd : List Char → Option (List Char)
  /-- Where `findOrMakeSubDir` comes to with a root that has no such directory yet. -/
  makeSubDir : List Char → List Char
  /-- A directory exists and is writable. -/
  writableDir : List Char → Bool
  /-- The directory above one. -/
  parent : List Char → List Char
  /-- The first directory there is for temporary files. -/
  tmp : Option (List Char)
  /-- The names of the files in a directory that can be read, or written. -/
  entryInfoList : List Char → (writable : Bool) → List (List Char)
  fileExists : FoundFile → Bool
  /-- A pattern matches a whole name without regard to case. -/
  hasMatch : List Char → List Char → Bool
  /-- A letter without its case. -/
  fold : Char → Char

namespace DataLocationMgr

variable (m : DataLocationMgr)

/-- The name of a zone's file. -/
def zoneFile (zoneName : List Char) : List Char := zoneName ++ ['.', 's', 'p']

/-- `findFile` in one directory. -/
def findFile (dir filename : List Char) (writable : Bool) : FoundFile :=
  match (m.entryInfoList dir writable).find? (m.hasMatch filename) with
  | some name => .entry dir name
  | none => .path dir filename

/-- There is a file where `findFile` says. -/
def finds (filename : List Char) (writable : Bool) (dir : List Char) : Bool :=
  m.fileExists (m.findFile dir filename writable)

/-- The directories in which `findExistingFile` looks, in turn. -/
def readDirs : List (List Char) :=
  (m.cd m.userData).toList ++ (m.cd m.pkgData).toList
    ++ (if m.legacyUserData.isEmpty then [] else (m.cd m.legacyUserData).toList)

/-- `findExistingFile`, where it finds one. -/
def findExistingFile (filename : List Char) : Option FoundFile :=
  (m.readDirs.find? (m.finds filename false)).map fun dir => m.findFile dir filename false

def findOrMakeSubDir (root : List Char) : List Char := (m.cd root).getD (m.makeSubDir root)

/-- `findWriteFile`, with the directory that it resolved. -/
def findWriteFile (filename : List Char) : List Char × FoundFile :=
  match (m.cd m.userData).filter (m.finds filename true) with
  | some dir => (dir, m.findFile dir filename true)
  | none =>
      let dir := m.findOrMakeSubDir m.userData
      if m.writableDir dir then (dir, .path dir filename)
      else
        match (m.cd m.pkgData).filter (m.finds filename true) with
        | some dir => (dir, m.findFile dir filename true)
        | none =>
            let dir := m.findOrMakeSubDir m.pkgData
            if m.writableDir dir then (dir, .path dir filename)
            else
              match m.tmp with
              | none => (['/'], .path ['/'] filename)
              | some tmp =>
                  let dir := m.findOrMakeSubDir tmp
                  if m.writableDir dir then (dir, .path (m.parent dir) filename)
                  else (dir, .path dir filename)

/-- A file is the one of a zone, up to case, and in the directory that was resolved. -/
structure IsZoneFile (zoneName dir : List Char) (file : FoundFile) : Prop where
  name : file.name.map m.fold = (zoneFile zoneName).map m.fold
  child : file.ChildOf dir

/-- What `saveSpawnPoints` writes, renames and removes, with a file that it resolved: the zone's
file, and beside it the new contents and the backup.
-/
structure SavesTo (zoneName dir : List Char) (file : FoundFile) : Prop where
  isFile : m.IsZoneFile zoneName dir file
  newName : (file.append ['.', 'n', 'e', 'w']).ChildOf dir
  backupName : (file.append ['.', 'b', 'a', 'k']).ChildOf dir

/-- A zone's name leads to no other file: `loadSpawnPoints` loads the zone's, and
`saveSpawnPoints`, which does nothing for an empty name, saves to the zone's.
-/
structure Contained (zoneName : List Char) : Prop where
  loaded : ∀ file ∈ m.findExistingFile (zoneFile zoneName), m.IsZoneFile zoneName file.dir file
  saved : zoneName ≠ [] →
    m.SavesTo zoneName (m.findWriteFile (zoneFile zoneName)).1
      (m.findWriteFile (zoneFile zoneName)).2

/-- A zone's name has no separator and does not begin as a resource. -/
def PlainName (zoneName : List Char) : Prop := '/' ∉ zoneName ∧ zoneName.head? ≠ some ':'

/-- The first file of a directory that the zone's pattern matches is the zone's, and the name is
plain if none is.
-/
def Clear (zoneName : List Char) (writable : Bool) (dir : List Char) : Prop :=
  match (m.entryInfoList dir writable).find? (m.hasMatch (zoneFile zoneName)) with
  | some name => name.map m.fold = (zoneFile zoneName).map m.fold
  | none => PlainName zoneName

/-- The directory in which a file to be written is there already: the user's, or the installed
one if the user's cannot be written to.
-/
def writeDir (zoneName : List Char) : Option (List Char) :=
  ((m.cd m.userData).filter (m.finds (zoneFile zoneName) true)).or
    (if m.writableDir (m.findOrMakeSubDir m.userData) then none
      else (m.cd m.pkgData).filter (m.finds (zoneFile zoneName) true))

/-- Neither of the two directories can be written to, and there is a writable one for temporary
files which is not its own parent.
-/
def TakesParent : Prop :=
  m.writableDir (m.findOrMakeSubDir m.userData) = false
  ∧ m.writableDir (m.findOrMakeSubDir m.pkgData) = false
  ∧ ∃ tmp, m.tmp = some tmp ∧ m.writableDir (m.findOrMakeSubDir tmp) = true
    ∧ m.parent (m.findOrMakeSubDir tmp) ≠ m.findOrMakeSubDir tmp

/-- The directories in which something is found are clear of files that only look like the
zone's; and where nothing is found to write to, the name is plain and the file comes into the
directory itself.
-/
structure Sound (zoneName : List Char) : Prop where
  read : ∀ dir, m.readDirs.find? (m.finds (zoneFile zoneName) false) = some dir →
    m.Clear zoneName false dir
  write : zoneName ≠ [] →
    match m.writeDir zoneName with
    | some dir => m.Clear zoneName true dir
    | none => PlainName zoneName ∧ ¬ m.TakesParent

variable {m} {zoneName dir resolved : List Char} {writable : Bool}

-----------------------------------------------------------------------------------------
-- One file
-----------------------------------------------------------------------------------------

theorem single_iff (zoneName more : List Char) (plain : '/' ∉ more)
    : FoundFile.Single (zoneFile zoneName ++ more) ↔ PlainName zoneName := by
  constructor
  · rintro ⟨noSeparator, noResource, -⟩
    refine ⟨fun mem => noSeparator ?_, fun first => noResource ?_⟩
    · rw [zoneFile]
      exact List.mem_append_left _ (List.mem_append_left _ mem)
    · rw [zoneFile, List.head?_append, List.head?_append, first]
      rfl
  · rintro ⟨noSeparator, noResource⟩
    refine ⟨?_, ?_, ?_⟩
    · rw [zoneFile, List.mem_append, List.mem_append]
      rintro ((mem | mem) | mem)
      · exact noSeparator mem
      · exact absurd mem (by decide)
      · exact plain mem
    · rw [zoneFile, List.head?_append, List.head?_append]
      cases first : zoneName.head? with
      | none => simp
      | some c => simpa [first] using noResource
    · have long : 3 ≤ (zoneFile zoneName ++ more).length := by
        rw [zoneFile, List.length_append, List.length_append]
        simp
        omega
      refine ⟨fun same => ?_, fun same => ?_, fun same => ?_⟩
      all_goals
        rw [same] at long
        exact absurd long (by decide)

theorem single_zoneFile_iff : FoundFile.Single (zoneFile zoneName) ↔ PlainName zoneName := by
  have same := single_iff zoneName [] (List.not_mem_nil)
  rwa [List.append_nil] at same

/-- A path with the zone's file name is the zone's file where the name is plain. -/
theorem isZoneFile_path_iff
    : m.IsZoneFile zoneName resolved (.path dir (zoneFile zoneName))
      ↔ dir = resolved ∧ PlainName zoneName := by
  rw [← single_zoneFile_iff]
  exact ⟨fun isFile => isFile.child, fun child => ⟨rfl, child⟩⟩

theorem savesTo_path_iff
    : m.SavesTo zoneName resolved (.path dir (zoneFile zoneName))
      ↔ dir = resolved ∧ PlainName zoneName := by
  constructor
  · exact fun saves => isZoneFile_path_iff.mp saves.isFile
  · rintro ⟨same, plain⟩
    exact ⟨isZoneFile_path_iff.mpr ⟨same, plain⟩,
      ⟨same, (single_iff zoneName _ (by decide)).mpr plain⟩,
      same, (single_iff zoneName _ (by decide)).mpr plain⟩

/-- What `findFile` finds in a directory is the zone's file exactly where the directory is
clear.
-/
theorem isZoneFile_findFile_iff
    : m.IsZoneFile zoneName dir (m.findFile dir (zoneFile zoneName) writable)
      ↔ m.Clear zoneName writable dir := by
  rw [findFile, Clear]
  cases (m.entryInfoList dir writable).find? (m.hasMatch (zoneFile zoneName)) with
  | some name => exact ⟨fun isFile => isFile.name, fun same => ⟨same, rfl⟩⟩
  | none => exact isZoneFile_path_iff.trans (and_iff_right rfl)

theorem savesTo_findFile_iff
    : m.SavesTo zoneName dir (m.findFile dir (zoneFile zoneName) writable)
      ↔ m.Clear zoneName writable dir := by
  rw [findFile, Clear]
  cases (m.entryInfoList dir writable).find? (m.hasMatch (zoneFile zoneName)) with
  | some name => exact ⟨fun saves => saves.isFile.name, fun same => ⟨⟨same, rfl⟩, rfl, rfl⟩⟩
  | none => exact savesTo_path_iff.trans (and_iff_right rfl)

theorem findFile_dir (m : DataLocationMgr) (dir filename : List Char) (writable : Bool)
    : (m.findFile dir filename writable).dir = dir := by
  rw [findFile]
  split <;> rfl

-----------------------------------------------------------------------------------------
-- Loading and saving
-----------------------------------------------------------------------------------------

theorem loaded_iff
    : (∀ file ∈ m.findExistingFile (zoneFile zoneName), m.IsZoneFile zoneName file.dir file)
      ↔ ∀ dir, m.readDirs.find? (m.finds (zoneFile zoneName) false) = some dir →
        m.Clear zoneName false dir := by
  rw [findExistingFile]
  cases m.readDirs.find? (m.finds (zoneFile zoneName) false) with
  | none => simp
  | some dir =>
      simp only [Option.map_some, Option.mem_some_iff, forall_eq', Option.some.injEq, findFile_dir,
        isZoneFile_findFile_iff]

/-- Without a directory that it can write to, `findWriteFile` takes one for temporary files: the
one above a directory of its own, where that is writable.
-/
theorem savesTo_tmp_iff (user : m.writableDir (m.findOrMakeSubDir m.userData) = false)
    (pkg : m.writableDir (m.findOrMakeSubDir m.pkgData) = false)
    (found : List Char × FoundFile)
    (found_eq : found =
      match m.tmp with
      | none => (['/'], .path ['/'] (zoneFile zoneName))
      | some tmp =>
          if m.writableDir (m.findOrMakeSubDir tmp) then
            (m.findOrMakeSubDir tmp,
              .path (m.parent (m.findOrMakeSubDir tmp)) (zoneFile zoneName))
          else (m.findOrMakeSubDir tmp, .path (m.findOrMakeSubDir tmp) (zoneFile zoneName)))
    : m.SavesTo zoneName found.1 found.2 ↔ PlainName zoneName ∧ ¬ m.TakesParent := by
  rw [TakesParent, and_iff_right user, and_iff_right pkg, found_eq]
  cases m.tmp with
  | none =>
      refine savesTo_path_iff.trans ?_
      simp
  | some tmp =>
      dsimp only
      by_cases writable : m.writableDir (m.findOrMakeSubDir tmp) = true
      · rw [if_pos writable, savesTo_path_iff]
        simp [writable, and_comm]
      · rw [if_neg writable, savesTo_path_iff]
        simp [writable]

/-- The file that is saved to is the zone's by the branch that `findWriteFile` takes. -/
theorem saved_iff
    : m.SavesTo zoneName (m.findWriteFile (zoneFile zoneName)).1
        (m.findWriteFile (zoneFile zoneName)).2
      ↔ match m.writeDir zoneName with
        | some dir => m.Clear zoneName true dir
        | none => PlainName zoneName ∧ ¬ m.TakesParent := by
  have path {dir : List Char} (kept : ¬ m.TakesParent)
      : m.SavesTo zoneName dir (.path dir (zoneFile zoneName))
        ↔ PlainName zoneName ∧ ¬ m.TakesParent := by
    rw [savesTo_path_iff, and_iff_right rfl, and_iff_left kept]
  rw [findWriteFile, writeDir]
  cases (m.cd m.userData).filter (m.finds (zoneFile zoneName) true) with
  | some dir => exact savesTo_findFile_iff
  | none =>
      dsimp only
      by_cases user : m.writableDir (m.findOrMakeSubDir m.userData) = true
      · rw [if_pos user, if_pos user]
        exact path fun takes => Bool.false_ne_true (takes.1.symm.trans user)
      · rw [if_neg user, if_neg user, Option.none_or]
        cases (m.cd m.pkgData).filter (m.finds (zoneFile zoneName) true) with
        | some dir => exact savesTo_findFile_iff
        | none =>
            dsimp only
            by_cases pkg : m.writableDir (m.findOrMakeSubDir m.pkgData) = true
            · rw [if_pos pkg]
              exact path fun takes => Bool.false_ne_true (takes.2.1.symm.trans pkg)
            · rw [if_neg pkg]
              exact savesTo_tmp_iff (Bool.eq_false_iff.mpr user) (Bool.eq_false_iff.mpr pkg) _ rfl

/-- A zone's name leads to no other file exactly where the directories are clear and the name is
plain.
-/
theorem contained_iff (m : DataLocationMgr) (zoneName : List Char)
    : m.Contained zoneName ↔ m.Sound zoneName :=
  ⟨fun contained =>
      ⟨loaded_iff.mp contained.loaded, fun named => saved_iff.mp (contained.saved named)⟩,
    fun sound => ⟨loaded_iff.mpr sound.read, fun named => saved_iff.mpr (sound.write named)⟩⟩

/-- A pattern of plain characters and dots matches a name of its length, a dot any character. -/
def matchesDots (pattern name : List Char) : Bool :=
  pattern.length == name.length
    && (pattern.zip name).all fun (p, c) => p == '.' || p.toLower == c.toLower

/-- A user's directory of spawn points with one file, left there by hand. -/
def besideQeynos : DataLocationMgr where
  userData := ['u']
  pkgData := ['p']
  legacyUserData := []
  cd root := if root = ['u'] then some ['u', '/', 's'] else none
  makeSubDir root := root
  writableDir dir := dir = ['u', '/', 's']
  parent _ := ['/']
  tmp := some ['/', 't']
  entryInfoList dir _ := if dir = ['u', '/', 's'] then ["qeynosxsp".toList] else []
  fileExists file := file.dir = ['u', '/', 's'] && file.name = "qeynosxsp".toList
  hasMatch := matchesDots
  fold := Char.toLower

/-- The dot of the zone's file name matches any letter: another file is loaded for the zone. -/
theorem not_contained : ¬ ∀ (m : DataLocationMgr) (zoneName : List Char), m.Contained zoneName := by
  intro contained
  have loaded := (contained besideQeynos "qeynos".toList).loaded
  have isFile := loaded (.entry ['u', '/', 's'] "qeynosxsp".toList) (by decide +kernel)
  exact absurd isFile.name (by decide +kernel)

end DataLocationMgr

end Scry
