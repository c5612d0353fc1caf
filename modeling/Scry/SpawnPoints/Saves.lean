import Scry.Guilds.GuildMgr
import Scry.SpawnPoints.Bookkeeping

/-! Saving when steps fail: the spawn points never lose their last file, though they are marked as
saved where it was not replaced; the guilds lose theirs where it is removed and not written again.
-/

namespace Scry

open SpawnMonitor

variable {τ : Type}

-----------------------------------------------------------------------------------------
-- What a save is to keep
-----------------------------------------------------------------------------------------

/-- The contents that are there before a save. -/
def lastGood (d : Directory SaveName τ) : Option τ := d .canonical <|> d .backup

/-- Where there were contents, these or the new ones are there after a save. -/
def Keeps (before after : Directory SaveName τ) (new : τ) : Prop :=
  ∀ old ∈ lastGood before,
    (after .canonical = some old ∨ after .canonical = some new)
      ∨ after .backup = some old ∨ after .backup = some new

theorem keeps_refl (d : Directory SaveName τ) (new : τ) : Keeps d d new := by
  intro old good
  rw [lastGood] at good
  cases canonical : d .canonical with
  | none =>
      rw [canonical] at good
      exact .inr (.inl good)
  | some contents =>
      rw [canonical] at good
      exact .inl (.inl good)

/-- Contents that are moved or stay keep the last ones. -/
theorem keeps_of {before after : Directory SaveName τ} {new : τ}
    (moved : ∀ old, before .canonical = some old →
      after .canonical = some old ∨ after .backup = some old)
    (stays : before .canonical = none → after .backup = before .backup)
    : Keeps before after new := by
  intro old good
  rw [lastGood] at good
  cases canonical : before .canonical with
  | none =>
      rw [canonical] at good
      exact .inr (.inl ((stays canonical).trans good))
  | some contents =>
      rw [canonical] at good
      obtain rfl : contents = old := Option.some.inj good
      rcases moved contents canonical with here | there
      · exact .inl (.inl here)
      · exact .inr (.inl there)

def SpawnMonitor.KeepsFile (m : SpawnMonitor) (s : Saving) : Prop :=
  Keeps s.directory (m.saveSpawnPoints s).2 (m.spawnFile s.rank)

/-- The mark of a change is taken away only where the file has all new contents. -/
def SpawnMonitor.MarksStored (m : SpawnMonitor) (s : Saving) : Prop :=
  m.modified = true → (m.saveSpawnPoints s).1.modified = false →
    (m.saveSpawnPoints s).2 .canonical = some (m.spawnFile s.rank)

def GuildMgr.KeepsFile (g : GuildMgr) (s : GuildSaving) : Prop :=
  Keeps s.directory (g.writeGuildList s) g.guildFile

-----------------------------------------------------------------------------------------
-- The spawn points
-----------------------------------------------------------------------------------------

/-- The old file can be moved away: it is seen, nothing is left under the name of the backup, and
it is renamed.
-/
def Saving.Moves (s : Saving) : Prop :=
  s.seesOld ∧ s.renamesOld
    ∧ (s.directory .backup = none ∨ (s.seesBackup ∧ s.removesBackup))

instance (s : Saving) : Decidable s.Moves := inferInstanceAs (Decidable (_ ∧ _ ∧ (_ ∨ (_ ∧ _))))

/-- The new contents come under the name of the file: all steps succeed, or the old contents are
the same and stay.
-/
def Saving.Replaces (s : Saving) (new : List Char) : Prop :=
  match s.directory .canonical with
  | none => s.renamesNew ∧ s.stores new = new
  | some old => if s.Moves then s.renamesNew ∧ s.stores new = new else old = new

/-- Where there is no old file, the new one gets its name if it can be renamed. -/
theorem replaceFile_new {s : Saving} (none_ : s.directory .canonical = none) (written : List Char)
    : (replaceFile s (s.directory.put .new (some written))) .backup = s.directory .backup
      ∧ (replaceFile s (s.directory.put .new (some written))) .canonical
        = if s.renamesNew then some written else none := by
  cases renamesNew : s.renamesNew with
  | false => simp [replaceFile, Directory.seen, Directory.rename, none_, renamesNew]
  | true => simp [replaceFile, Directory.seen, Directory.rename, none_, renamesNew]

/-- An old file that can be moved away is the backup, and the new one gets its name if it can be
renamed.
-/
theorem replaceFile_moves {s : Saving} {old : List Char}
    (there : s.directory .canonical = some old) (moves : s.Moves) (written : List Char)
    : (replaceFile s (s.directory.put .new (some written))) .backup = some old
      ∧ (replaceFile s (s.directory.put .new (some written))) .canonical
        = if s.renamesNew then some written else none := by
  obtain ⟨seesOld, renamesOld, free⟩ := moves
  cases backup : s.directory .backup with
  | none =>
      cases renamesNew : s.renamesNew with
      | false =>
          simp [replaceFile, removeBackup, Directory.seen, Directory.rename, there, seesOld,
            renamesOld, backup, renamesNew]
      | true =>
          simp [replaceFile, removeBackup, Directory.seen, Directory.rename, there, seesOld,
            renamesOld, backup, renamesNew]
  | some kept =>
      obtain ⟨seesBackup, removesBackup⟩ := free.resolve_left (by simp [backup])
      cases renamesNew : s.renamesNew with
      | false =>
          simp [replaceFile, removeBackup, Directory.seen, Directory.rename, Directory.remove, there,
            seesOld, renamesOld, backup, seesBackup, removesBackup, renamesNew]
      | true =>
          simp [replaceFile, removeBackup, Directory.seen, Directory.rename, Directory.remove, there,
            seesOld, renamesOld, backup, seesBackup, removesBackup, renamesNew]

/-- Clearing the backup leaves the other files, and no backup if it can be removed. -/
theorem removeBackup_eq (s : Saving) (d : Directory SaveName (List Char))
    : removeBackup s d .canonical = d .canonical
      ∧ (removeBackup s d .backup = none → d .backup = none ∨ s.seesBackup ∧ s.removesBackup) := by
  rw [removeBackup, Directory.remove]
  split_ifs with sees removes
  · have canonical : d.put .backup none .canonical = d .canonical :=
      Directory.put_of_ne d (by decide) none
    refine ⟨canonical, fun _ => .inr ?_⟩
    simp only [Directory.seen, Bool.and_eq_true] at sees removes
    exact ⟨sees.2, removes.2⟩
  · exact ⟨rfl, .inl⟩
  · exact ⟨rfl, .inl⟩

/-- An old file that cannot be moved away stays: no file is renamed to the name of another. -/
theorem replaceFile_stays {s : Saving} {old : List Char}
    (there : s.directory .canonical = some old) (stays : ¬ s.Moves) (written : List Char)
    : (replaceFile s (s.directory.put .new (some written))) .canonical = some old := by
  obtain ⟨canonical, free⟩ := removeBackup_eq s (s.directory.put .new (some written))
  have old_ : s.directory.put .new (some written) .canonical = some old :=
    (Directory.put_of_ne _ (by decide) _).trans there
  have backup : s.directory.put .new (some written) .backup = s.directory .backup :=
    Directory.put_of_ne _ (by decide) _
  rw [old_] at canonical
  rw [backup] at free
  simp only [replaceFile]
  split_ifs with sees moved
  · obtain ⟨seen, none_⟩ := Directory.of_renamed moved
    simp only [Directory.seen, Bool.and_eq_true] at sees seen
    exact absurd ⟨sees.2, seen.2, free none_⟩ stays
  · rw [Directory.rename_of_not moved]
    exact canonical
  · rw [Directory.rename_of_not]
    · exact old_
    · intro renamed
      cases old_.symm.trans (Directory.of_renamed renamed).2

theorem saveSpawnPoints_directory {m : SpawnMonitor} {s : Saving} (saves : m.Saves s)
    : (m.saveSpawnPoints s).2
      = replaceFile s (s.directory.put .new (some (s.stores (m.spawnFile s.rank)))) := by
  rw [saveSpawnPoints_of_saves saves]

/-- However the steps come out, the last spawn points are there. -/
theorem keepsFile_spawnPoints (m : SpawnMonitor) (s : Saving) : m.KeepsFile s := by
  rw [SpawnMonitor.KeepsFile]
  by_cases saves : m.Saves s
  · rw [saveSpawnPoints_directory saves]
    apply keeps_of
    · intro old there
      by_cases moves : s.Moves
      · exact .inr (replaceFile_moves there moves _).1
      · exact .inl (replaceFile_stays there moves _)
    · intro none_
      exact (replaceFile_new none_ _).1
  · rw [saveSpawnPoints_of_not_saves saves]
    exact keeps_refl _ _

theorem canonical_iff {renames : Bool} {written new : List Char}
    : (if renames then some written else none) = some new ↔ renames ∧ written = new := by
  cases renames with
  | false => simp
  | true => simp

/-- The mark goes only with the new contents in place, exactly where the steps replace the file.
-/
theorem marksStored_iff (m : SpawnMonitor) (s : Saving)
    : m.MarksStored s ↔ (m.Saves s → s.Replaces (m.spawnFile s.rank)) := by
  by_cases saves : m.Saves s
  · have marks : m.MarksStored s
        ↔ (m.saveSpawnPoints s).2 .canonical = some (m.spawnFile s.rank) := by
      constructor
      · intro stored
        exact stored saves.2.1 (by rw [saveSpawnPoints_of_saves saves])
      · intro stored _ _
        exact stored
    rw [marks, saveSpawnPoints_directory saves, imp_iff_right saves, Saving.Replaces]
    cases canonical : s.directory .canonical with
    | none =>
        rw [(replaceFile_new canonical _).2]
        exact canonical_iff
    | some old =>
        dsimp only
        split_ifs with moves
        · rw [(replaceFile_moves canonical moves _).2]
          exact canonical_iff
        · rw [replaceFile_stays canonical moves, Option.some_inj]
  · apply iff_of_true
    · intro modified cleared
      rw [saveSpawnPoints_of_not_saves saves, modified] at cleared
      cases cleared
    · intro does
      exact absurd does saves

-----------------------------------------------------------------------------------------
-- The guilds
-----------------------------------------------------------------------------------------

/-- The old guilds are there: they are not removed, or all that is to be stored is, or they are
also under the name of a backup.
-/
def GuildSaving.Spares (s : GuildSaving) (new : List Char) : Prop :=
  ∀ old ∈ s.directory .canonical,
    (if s.opens then (s.sees ∧ ¬ s.removes) ∨ s.stores new = old ∨ s.stores new = new
      else s.sees → ¬ s.removes)
    ∨ s.directory .backup = some old ∨ s.directory .backup = some new

/-- Writing the guilds keeps the last ones exactly where the steps spare them. -/
theorem keepsFile_guilds_iff (g : GuildMgr) (s : GuildSaving)
    : g.KeepsFile s ↔ s.Spares g.guildFile := by
  obtain ⟨backup, canonical⟩ := g.writeGuildList_eq s
  rw [GuildMgr.KeepsFile, Keeps, GuildSaving.Spares, lastGood]
  cases there : s.directory .canonical with
  | none =>
      apply iff_of_true
      · intro old good
        exact .inr (.inl (backup.trans good))
      · intro old member
        cases member
  | some contents =>
      rw [there] at canonical
      have only (P : List Char → Prop) : (∀ old ∈ some contents, P old) ↔ P contents :=
        ⟨fun all => all contents rfl, fun holds old member => Option.some.inj member ▸ holds⟩
      have whole : (some contents <|> s.directory .backup) = some contents := rfl
      rw [whole, only, only, backup, canonical]
      simp only [Directory.seen, there, Option.isSome_some, Bool.true_and]
      apply or_congr_left
      cases s.sees with
      | false =>
          cases s.opens with
          | false => simp
          | true => simp
      | true =>
          cases s.removes with
          | false => simp
          | true =>
              cases s.opens with
              | false => simp
              | true => simp

-----------------------------------------------------------------------------------------
-- Both
-----------------------------------------------------------------------------------------

/-- Both saves keep the last contents and the mark is right if and only if the steps of the one
replace its file, where it comes to that, and those of the other spare the guilds.
-/
theorem saves_iff (m : SpawnMonitor) (s : Saving) (g : GuildMgr) (gs : GuildSaving)
    : m.KeepsFile s ∧ g.KeepsFile gs ∧ m.MarksStored s
      ↔ (m.Saves s → s.Replaces (m.spawnFile s.rank)) ∧ gs.Spares g.guildFile := by
  rw [keepsFile_guilds_iff, marksStored_iff]
  constructor
  · rintro ⟨_, spares, replaces⟩
    exact ⟨replaces, spares⟩
  · rintro ⟨replaces, spares⟩
    exact ⟨keepsFile_spawnPoints m s, spares, replaces⟩

/-- Guilds that are removed, while no file can be opened for the new ones. -/
def closedSaving : GuildSaving :=
  { directory := fun name => if name = .canonical then some "65537|Fires of Heaven\n".toList else none
    sees := true, removes := true, opens := false, stores := id }

/-- Spawn points whose new file is not renamed are marked as saved, and guilds are lost. -/
theorem not_saves
    : (¬ ∀ m s, SpawnMonitor.MarksStored m s) ∧ ¬ ∀ g gs, GuildMgr.KeepsFile g gs := by
  constructor
  · intro marks
    have stored := marks { fresh true with zoneName := ['q'], modified := true }
      { Watched.plainSaving with renamesNew := false } rfl (by decide +kernel)
    revert stored
    decide +kernel
  · intro keeps
    have kept := (keepsFile_guilds_iff _ _).mp (keeps .fresh closedSaving) _ rfl
    revert kept
    decide +kernel

end Scry
