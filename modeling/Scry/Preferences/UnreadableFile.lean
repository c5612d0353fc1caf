import Scry.Library.Machine
import Scry.Preferences.Reload

/-! What becomes of a user file that the parser rejects.
A file that is rejected is taken for one that is missing, so that an import of the legacy file or
a save of later settings replaces it.
-/

namespace Scry

/-- What is left of a disk without one file. -/
def Disk.remove {content : Type} (disk : Disk content) (path : List Char) : Disk content :=
  fun other => if other = path then none else disk other

namespace TomlPreferences

/-- A store and the files around it. -/
structure Run (content : Type) where
  store : TomlPreferences
  disk : Disk content

/-- What is done with a store; where a file may be written, it can be written or not. -/
inductive Operation
  | create (writable : Bool)
  | revert (writable : Bool)
  | setPref (call : PreferenceCall)
  | save (writable : Bool)

variable {content : Type} (formats : FileFormats content) (numbers : NumberReader)

def Run.step (op : Operation) (s : Run content) : Run content :=
  match op with
  | .create writable =>
      let made :=
        TomlPreferences.create formats numbers s.store.defaultsFile s.store.userFile s.disk writable
      ⟨made.1, made.2⟩
  | .revert writable =>
      let made := TomlPreferences.revert formats numbers s.store s.disk writable
      ⟨made.1, made.2⟩
  | .setPref call => ⟨s.store.setPref call.name call.sect call.setting, s.disk⟩
  | .save writable =>
      let saved := TomlPreferences.save formats s.store s.disk writable
      ⟨saved.1, saved.2.1⟩

/-- A legacy file with settings lies beside the user file. -/
def Importable (disk : Disk content) (userFile : List Char) : Bool :=
  (disk.read (xmlPath userFile)).any fun text => (importXml formats numbers text .empty).2

/-- The operation writes no file: nothing can be written, or there is nothing to import and
nothing that waits to be saved.
-/
def Run.Spares (s : Run content) : Operation → Prop
  | .create writable | .revert writable =>
      ¬ (writable = true ∧ Importable formats numbers s.disk s.store.userFile = true)
  | .setPref _ => True
  | .save writable => ¬ (writable = true ∧ s.store.userDirty = true)

variable {formats numbers} {s : Run content} {p : TomlPreferences} {disk : Disk content}
  {unread : content}

-----------------------------------------------------------------------------------------
-- One operation
-----------------------------------------------------------------------------------------

theorem importXml_imported (text : content) (into : PreferencePool)
    : (importXml formats numbers text into).2 = (importXml formats numbers text .empty).2 := by
  rw [importXml, importXml]
  cases formats.readXml text with
  | none => rfl
  | some tokens => rfl

theorem loadToml_rejected {path : List Char} (there : disk.read path = some unread)
    (rejected : formats.parseToml unread = none) (into : PreferencePool)
    : loadToml formats disk path into = .error .parseError := by
  rw [loadToml, there]
  dsimp only
  rw [rejected]

/-- A written file is read as it was written. -/
theorem read_write {path : List Char} (named : path ≠ []) (text : content)
    : (disk.write path text).read path = some text := by
  rw [Disk.read, if_neg named, Disk.write, if_pos rfl]

/-- What is printed is no text that the parser rejects. -/
theorem printed_ne (readsBack : formats.ReadsBack) (rejected : formats.parseToml unread = none)
    (doc : PrintedToml)
    : formats.printToml doc ≠ unread := by
  rintro rfl
  rw [readsBack] at rejected
  cases rejected

/-- A save leaves a rejected file alone exactly where it writes nothing. -/
theorem save_keeps_iff (readsBack : formats.ReadsBack) (named : p.userFile ≠ [])
    (there : disk.read p.userFile = some unread) (rejected : formats.parseToml unread = none)
    (writable : Bool)
    : (save formats p disk writable).2.1.read p.userFile = some unread
      ↔ ¬ (writable = true ∧ p.userDirty = true) := by
  cases dirty : p.userDirty with
  | false => simp [save, dirty, there]
  | true =>
      cases writable with
      | false => simp [save, dirty, named, there]
      | true =>
          have other := printed_ne readsBack rejected (document p.user)
          simp [save, dirty, named, read_write, other]

/-- Loading leaves a rejected file alone exactly where it finds nothing to import, or cannot
write.
-/
theorem load_keeps_iff (readsBack : formats.ReadsBack) (named : p.userFile ≠ [])
    (there : disk.read p.userFile = some unread) (rejected : formats.parseToml unread = none)
    (writable : Bool)
    : (loadUserWithMigration formats numbers p disk writable).2.read p.userFile = some unread
      ↔ ¬ (writable = true ∧ Importable formats numbers disk p.userFile = true) := by
  rw [loadUserWithMigration, if_neg named, loadToml_rejected there rejected]
  dsimp only
  rw [Importable]
  cases disk.read (xmlPath p.userFile) with
  | none => simp [there]
  | some text =>
      dsimp only [Option.any_some]
      rw [importXml_imported text p.user]
      cases (importXml formats numbers text .empty).2 with
      | false => simp [there]
      | true =>
          let imported : TomlPreferences :=
            { p with user := (importXml formats numbers text p.user).1, userDirty := true }
          have saved := save_keeps_iff (p := imported) readsBack named there rejected writable
          simpa using saved

/-- The run goes on over the same files. -/
def Run.Over (defaultsFile userFile : List Char) (s : Run content) : Prop :=
  s.store.defaultsFile = defaultsFile ∧ s.store.userFile = userFile

theorem save_files (writable : Bool)
    : (save formats p disk writable).1.defaultsFile = p.defaultsFile
      ∧ (save formats p disk writable).1.userFile = p.userFile := by
  obtain ⟨dirty, saved⟩ := save_store (p := p) writable
  exact saved ▸ ⟨rfl, rfl⟩

theorem load_files (writable : Bool)
    : (loadUserWithMigration formats numbers p disk writable).1.defaultsFile = p.defaultsFile
      ∧ (loadUserWithMigration formats numbers p disk writable).1.userFile = p.userFile := by
  obtain ⟨user, dirty, made⟩ := load_store (p := p) writable
  exact made ▸ ⟨rfl, rfl⟩

theorem over_step {defaultsFile userFile : List Char} (s : Run content) (op : Operation)
    (files : s.Over defaultsFile userFile)
    : (s.step formats numbers op).Over defaultsFile userFile := by
  obtain ⟨rfl, rfl⟩ := files
  cases op with
  | create writable | revert writable => exact load_files writable
  | setPref call => exact ⟨rfl, rfl⟩
  | save writable => exact save_files writable

/-- An operation leaves a rejected file alone exactly where it writes none. -/
theorem step_keeps_iff (readsBack : formats.ReadsBack) (named : s.store.userFile ≠ [])
    (there : s.disk.read s.store.userFile = some unread)
    (rejected : formats.parseToml unread = none) (op : Operation)
    : (s.step formats numbers op).disk.read s.store.userFile = some unread
      ↔ s.Spares formats numbers op := by
  cases op with
  | create writable =>
      exact load_keeps_iff
        (p := { s.store with
          runtime := .empty, user := .empty, userDirty := false,
          defaults := loaded formats s.disk s.store.defaultsFile .empty })
        readsBack named there rejected writable
  | revert writable =>
      exact load_keeps_iff
        (p := { s.store with
          user := .empty, userDirty := false,
          defaults := loaded formats s.disk s.store.defaultsFile .empty })
        readsBack named there rejected writable
  | setPref call => exact iff_of_true there trivial
  | save writable => exact save_keeps_iff readsBack named there rejected writable

-----------------------------------------------------------------------------------------
-- Runs
-----------------------------------------------------------------------------------------

/-- The legacy file is not the user file. -/
theorem xmlPath_ne (userFile : List Char) : xmlPath userFile ≠ userFile := by
  intro same
  have lengths := congrArg List.length same
  rw [xmlPath, List.length_append] at lengths
  have added : ".xml".toList.length = 4 := by decide
  split_ifs at lengths with suffix
  · have five := congrArg List.length suffix
    have written : ".toml".toList.length = 5 := by decide
    rw [List.length_map, List.length_drop, written] at five
    rw [List.length_take, added] at lengths
    omega
  · omega

theorem save_agrees (other : Disk content) (writable : Bool)
    : (save formats p disk writable).1 = (save formats p other writable).1 := by
  rw [save, save]
  split_ifs <;> rfl

/-- A rejected file makes the same store as a missing one. -/
theorem load_missing (there : disk.read p.userFile = some unread)
    (rejected : formats.parseToml unread = none) (writable : Bool)
    : (loadUserWithMigration formats numbers p disk writable).1
      = (loadUserWithMigration formats numbers p (disk.remove p.userFile) writable).1 := by
  by_cases unnamed : p.userFile = []
  · rw [loadUserWithMigration, loadUserWithMigration, if_pos unnamed, if_pos unnamed]
  · have missing : (disk.remove p.userFile).read p.userFile = none := by
      rw [Disk.read, if_neg unnamed, Disk.remove, if_pos rfl]
    have notFound : loadToml formats (disk.remove p.userFile) p.userFile p.user
        = .error .notFound := by
      rw [loadToml, missing]
    have legacy
        : (disk.remove p.userFile).read (xmlPath p.userFile) = disk.read (xmlPath p.userFile) := by
      rw [Disk.read, Disk.read, Disk.remove, if_neg (xmlPath_ne p.userFile)]
    rw [loadUserWithMigration, loadUserWithMigration, if_neg unnamed, if_neg unnamed,
      loadToml_rejected there rejected, notFound, legacy]
    cases disk.read (xmlPath p.userFile) with
    | none => rfl
    | some text =>
        dsimp only
        split_ifs
        · exact save_agrees _ writable
        · rfl

theorem loaded_remove {path other : List Char} (apart : other ≠ path) (into : PreferencePool)
    : loaded formats (disk.remove path) other into = loaded formats disk other into := by
  have same : (disk.remove path).read other = disk.read other := by
    rw [Disk.read, Disk.read, Disk.remove, if_neg apart]
  rw [loaded, loaded, loadToml, loadToml, same]

/-- A rejected user file stays as it is throughout a run exactly where every operation spares it.
A new store takes it for a missing one.
-/
theorem unreadable_kept_iff (readsBack : formats.ReadsBack) {defaultsFile userFile : List Char}
    (named : userFile ≠ []) (apart : defaultsFile ≠ userFile)
    (rejected : formats.parseToml unread = none) (files : s.Over defaultsFile userFile)
    (there : s.disk.read userFile = some unread) (ops : List Operation)
    : (Machine.Always (Run.step formats numbers)
          (fun s => s.disk.read userFile = some unread) s ops
        ↔ Machine.Permits (Run.step formats numbers) (Run.Spares formats numbers) s ops)
      ∧ ∀ writable,
          (create formats numbers defaultsFile userFile s.disk writable).1
            = (create formats numbers defaultsFile userFile (s.disk.remove userFile) writable).1 := by
  constructor
  · apply Machine.always_iff_permits (W := Run.Over defaultsFile userFile) files there over_step
    intro s op files there
    obtain ⟨rfl, rfl⟩ := files
    exact step_keeps_iff readsBack named there rejected op
  · intro writable
    rw [create, create, loaded_remove apart]
    exact load_missing (p := { defaultsFile, userFile, defaults := _ }) there rejected writable

/-- A rejected user file, with a legacy file beside it or without one. -/
def brokenDisk (legacy : Option SampleFile) : Disk SampleFile := fun path =>
  if path = "user.toml".toList then some .broken
  else if path = "user.xml".toList then legacy
  else none

/-- A store before its files are read. -/
def unloaded (legacy : Option SampleFile) : Run SampleFile :=
  ⟨{ defaultsFile := "def.toml".toList, userFile := "user.toml".toList }, brokenDisk legacy⟩

def device : PreferenceCall := ⟨"Device".toList, "Network".toList, .string "eth0".toList⟩

theorem not_importable
    : Importable sampleFormats sampleNumbers (brokenDisk none) "user.toml".toList = false := by
  decide +kernel

theorem unreadable_kept_unsaved
    : Machine.Always (Run.step sampleFormats sampleNumbers)
        (fun s => s.disk.read "user.toml".toList = some .broken) (unloaded none)
        [.create true, .setPref device, .save false] :=
  (unreadable_kept_iff (s := unloaded none) readsBack_sampleFormats
    (by decide : "user.toml".toList ≠ []) (by decide : "def.toml".toList ≠ _) rfl ⟨rfl, rfl⟩ rfl
    [.create true, .setPref device, .save false]).1.mpr
    ⟨fun both => Bool.noConfusion (not_importable.symm.trans both.2), trivial,
      fun both => Bool.noConfusion both.1, trivial⟩

/-- A setting that is saved replaces the rejected file, and so does a legacy file. -/
theorem not_unreadable_kept
    : (unloaded none).disk.read "user.toml".toList = some .broken
      ∧ ((Machine.exec (Run.step sampleFormats sampleNumbers) (unloaded none)
          [.create true, .setPref device, .save true]).disk.read "user.toml".toList).map
            (fun file => (sampleFormats.parseToml file).isSome) = some true
      ∧ ((Machine.exec (Run.step sampleFormats sampleNumbers)
          (unloaded (some (.xml [
            .startElement "section".toList [("name".toList, "Network".toList)],
            .startElement "property".toList [("name".toList, "Device".toList)],
            .startElement "string".toList [("value".toList, "eth0".toList)]])))
          [.create true]).disk.read "user.toml".toList).map
            (fun file => (sampleFormats.parseToml file).isSome) = some true := by
  refine ⟨rfl, ?_, ?_⟩ <;> decide +kernel

end TomlPreferences

end Scry
