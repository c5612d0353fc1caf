import Scry.Preferences.TomlPreferences

/-! What a new store reads of what an old one saved. An unsigned value has no counterpart in the
file and comes back as a signed one. No accessor but the one for texts tells them apart.
-/

namespace Scry

open TextStream

/-- The value as which a saved one comes back. -/
def PreferenceValue.settled (v : PreferenceValue) : PreferenceValue :=
  (TomlPreferences.savedNode v).value

namespace TomlPreferences

variable {content : Type} {formats : FileFormats content} {numbers : NumberReader}
  {disk : Disk content} {p old fresh : TomlPreferences} {pool : PreferencePool}

-----------------------------------------------------------------------------------------
-- The saved document
-----------------------------------------------------------------------------------------

/-- The values of the document are those of the pool. -/
theorem mem_items_document {item : PreferenceItem}
    : item ∈ (document pool).table.items
      ↔ ∃ v, pool.get item.sect item.name = some v ∧ item.value = v.settled := by
  have values {name : List Char} {v : PreferenceValue}
      (m : OrderedMap (List Char) PreferenceValue)
      : m.find? name = some v ↔ (name, v) ∈ m.entries := OrderedMap.find?_eq_some_iff
  constructor
  · intro member
    obtain ⟨⟨sect, node⟩, listed, inside⟩ := List.mem_flatMap.mp member
    obtain ⟨nodes, there, same⟩ := List.mem_map.mp listed
    obtain ⟨⟨sect', m⟩, there', rfl⟩ := List.mem_map.mp there
    cases same
    obtain ⟨⟨name, node⟩, there'', made⟩ := List.mem_filterMap.mp inside
    obtain ⟨⟨name', s⟩, there''', same⟩ := List.mem_map.mp there''
    obtain ⟨⟨name'', v⟩, last, same'⟩ := List.mem_map.mp there'''
    cases same'
    cases same
    cases made
    refine ⟨v, ?_, rfl⟩
    rw [PreferencePool.get, OrderedMap.find?_eq_some_iff.mpr there']
    exact OrderedMap.find?_eq_some_iff.mpr last
  · rintro ⟨v, found, same⟩
    obtain ⟨m, here, inside⟩ := Option.bind_eq_some_iff.mp found
    refine List.mem_flatMap.mpr ⟨(item.sect, some ((m.mapValues savedNode).mapValues some)), ?_, ?_⟩
    · exact List.mem_map.mpr ⟨_, List.mem_map.mpr ⟨_, OrderedMap.mem_of_find? here, rfl⟩, rfl⟩
    · refine List.mem_filterMap.mpr ⟨(item.name, some (savedNode v)), ?_, ?_⟩
      · exact List.mem_map.mpr ⟨_, List.mem_map.mpr ⟨_, OrderedMap.mem_of_find? inside, rfl⟩, rfl⟩
      · cases item
        cases same
        rfl

/-- A pool read back holds what was saved. -/
theorem get_reloaded (sect name : List Char)
    : (PreferencePool.empty.setAll (document pool).table.items).get sect name
      = (pool.get sect name).map PreferenceValue.settled := by
  rw [PreferencePool.get_setAll, PreferencePool.get_empty]
  cases found : (document pool).table.items.reverse.find? fun item =>
      item.sect = sect ∧ item.name = name with
  | some item =>
      have listed := List.mem_reverse.mp (List.mem_of_find?_eq_some found)
      obtain ⟨v, there, same⟩ := mem_items_document.mp listed
      obtain ⟨rfl, rfl⟩ : item.sect = sect ∧ item.name = name := by
        simpa using List.find?_some found
      rw [there, Option.map_some, Option.map_some, same]
      rfl
  | none =>
      cases there : pool.get sect name with
      | none => rfl
      | some v =>
          have listed : ⟨sect, name, v.settled⟩ ∈ (document pool).table.items :=
            mem_items_document.mpr ⟨v, there, rfl⟩
          have missed := List.find?_eq_none.mp found _ (List.mem_reverse.mpr listed)
          simp at missed

-----------------------------------------------------------------------------------------
-- Accessors
-----------------------------------------------------------------------------------------

/-- A store whose user pool was saved and read again, or was read as it is. -/
structure Resembles (fresh old : TomlPreferences) : Prop where
  runtime : fresh.runtime = old.runtime
  defaults : fresh.defaults = old.defaults
  user : fresh.user = old.user ∨ ∀ sect name,
    fresh.user.get sect name = (old.user.get sect name).map PreferenceValue.settled

theorem find_eq (p : TomlPreferences) (name sect : List Char) (pers : Persistence)
    : p.find name sect pers
      = (if pers.runtime then p.runtime.get sect name else none).or
          ((if pers.user then p.user.get sect name else none).or
            (if pers.defaults then p.defaults.get sect name else none)) := by
  have asked (bit : Bool) (pool : PreferencePool)
      : (if bit then [pool] else []).findSome? (fun pool => pool.get sect name)
        = if bit then pool.get sect name else none := by
    cases bit with
    | false => rfl
    | true => exact List.findSome?_singleton
  rw [find, pools, List.findSome?_append, List.findSome?_append, asked, asked, asked,
    Option.or_assoc]

/-- Where nothing was set on the command line, the user's settings come first. -/
theorem find_any (runtime : p.runtime = .empty) (name sect : List Char)
    : p.find name sect .any = (p.user.get sect name).or (p.defaults.get sect name) := by
  rw [find_eq, runtime]
  rfl

/-- Where nothing was set on the command line, what the user sets is found. -/
theorem find_setPref (runtime : p.runtime = .empty) (name sect other there : List Char)
    (setting : PreferenceSetting)
    : (p.setPref name sect setting).find other there .any
      = if there = sect ∧ other = name then some setting.stored
        else p.find other there .any := by
  rw [find_any runtime]
  refine (find_any (p := p.setPref name sect setting) runtime other there).trans ?_
  change ((p.user.set ⟨sect, name, setting.stored⟩).get there other).or _ = _
  rw [PreferencePool.get_set]
  by_cases same : there = sect ∧ other = name
  · rw [if_pos same, if_pos same]
    rfl
  · rw [if_neg same, if_neg same]
    rfl

theorem Resembles.find (alike : Resembles fresh old) (name sect : List Char)
    (pers : Persistence)
    : fresh.find name sect pers = old.find name sect pers
      ∨ fresh.find name sect pers = (old.find name sect pers).map PreferenceValue.settled := by
  rcases alike.user with same | settled
  · left
    rw [find_eq, find_eq, alike.runtime, alike.defaults, same]
  · rw [find_eq, find_eq, alike.runtime, alike.defaults, settled]
    cases (if pers.runtime then old.runtime.get sect name else none) with
    | some v => exact .inl rfl
    | none =>
        by_cases asked : pers.user
        · rw [if_pos asked, if_pos asked]
          cases old.user.get sect name with
          | some v => exact .inr rfl
          | none => exact .inl rfl
        · rw [if_neg asked, if_neg asked]
          exact .inl rfl

theorem Resembles.contains (alike : Resembles fresh old) (sect : List Char)
    : fresh.user.contains sect = old.user.contains sect := by
  rcases alike.user with same | settled
  · rw [same]
  · rw [Bool.eq_iff_iff, PreferencePool.contains_iff, PreferencePool.contains_iff]
    simp only [settled, Option.isSome_map]

theorem toText_settled {v : PreferenceValue} (small : ∀ u, v = .uint u → u < 0x8000000000000000)
    : v.settled.toText = v.toText := by
  cases v with
  | str s => rfl
  | int i => rfl
  | bool b => rfl
  | uint u =>
      have below : u.toNat < 0x8000000000000000 := UInt64.lt_iff_toNat_lt.mp (small u rfl)
      have value : u.toInt64.toInt = u.toNat :=
        BitVec.toInt_eq_toNat_of_lt (x := u.toBitVec) (by change 2 * u.toNat < 2 ^ 64; omega)
      change decimalInt u.toInt64.toInt = decimal u.toNat
      rw [value, decimalInt, if_neg (by omega), Int.natAbs_natCast]

theorem isSection_agrees (alike : Resembles fresh old) (sect : List Char) (pers : Persistence)
    : fresh.isSection sect pers = old.isSection sect pers := by
  have user := alike.contains sect
  obtain ⟨runtime, user', defaults⟩ := pers
  cases runtime <;> cases user' <;> cases defaults <;>
    simp [isSection, pools, alike.runtime, alike.defaults, user]

theorem isPreference_agrees (alike : Resembles fresh old) (name sect : List Char)
    (pers : Persistence)
    : fresh.isPreference name sect pers = old.isPreference name sect pers := by
  rw [isPreference, isPreference]
  rcases alike.find name sect pers with found | found
  · rw [found]
  · rw [found, Option.isSome_map]

theorem getPrefString_agrees (alike : Resembles fresh old) (name sect : List Char)
    (pers : Persistence) (default : List Char)
    (small : ∀ u, old.find name sect pers = some (.uint u) → u < 0x8000000000000000)
    : fresh.getPrefString name sect default pers = old.getPrefString name sect default pers := by
  rw [getPrefString, getPrefString]
  rcases alike.find name sect pers with found | found
  · rw [found]
  · rw [found]
    cases there : old.find name sect pers with
    | none => rfl
    | some v => exact toText_settled fun u kind => small u (kind ▸ there)

theorem getPrefInt_agrees (alike : Resembles fresh old) (name sect : List Char)
    (pers : Persistence) (default : Int32)
    : fresh.getPrefInt numbers name sect default pers
      = old.getPrefInt numbers name sect default pers := by
  rw [getPrefInt, getPrefInt]
  rcases alike.find name sect pers with found | found
  · rw [found]
  · rw [found]
    cases old.find name sect pers with
    | none => rfl
    | some v => cases v <;> rfl

theorem getPrefUInt64_agrees (alike : Resembles fresh old) (name sect : List Char)
    (pers : Persistence) (default : UInt64)
    : fresh.getPrefUInt64 numbers name sect default pers
      = old.getPrefUInt64 numbers name sect default pers := by
  rw [getPrefUInt64, getPrefUInt64]
  rcases alike.find name sect pers with found | found
  · rw [found]
  · rw [found]
    cases old.find name sect pers with
    | none => rfl
    | some v => cases v <;> rfl

theorem getPrefBool_agrees (alike : Resembles fresh old) (name sect : List Char)
    (pers : Persistence) (default : Bool)
    : fresh.getPrefBool name sect default pers = old.getPrefBool name sect default pers := by
  rw [getPrefBool, getPrefBool]
  rcases alike.find name sect pers with found | found
  · rw [found]
  · rw [found]
    cases old.find name sect pers with
    | none => rfl
    | some v =>
        cases v with
        | uint u =>
            have zero : u.toInt64 = 0 ↔ u = 0 :=
              ⟨fun same => congrArg Int64.toUInt64 same, fun same => same ▸ rfl⟩
            change decide (u.toInt64 ≠ 0) = decide (u ≠ 0)
            simp only [ne_eq, zero]
        | str s | int i | bool b => rfl

theorem getPrefColor_agrees (alike : Resembles fresh old) (name sect : List Char)
    (pers : Persistence) (default : SeqColor)
    : fresh.getPrefColor numbers name sect default pers
      = old.getPrefColor numbers name sect default pers := by
  rw [getPrefColor, getPrefColor]
  rcases alike.find name sect pers with found | found
  · rw [found]
  · rw [found]
    cases old.find name sect pers with
    | none => rfl
    | some v =>
        cases v with
        | uint u =>
            have before : (SeqColor.ofText numbers (decimal u.toNat)).valid = false := by
              have unsigned := SeqColor.ofText_decimalInt numbers u.toNat
              rwa [decimalInt, if_neg (by omega), Int.natAbs_natCast] at unsigned
            have after := SeqColor.ofText_decimalInt numbers u.toInt64.toInt
            change (if (SeqColor.ofText numbers (decimalInt u.toInt64.toInt)).valid then _ else _)
              = if (SeqColor.ofText numbers (decimal u.toNat)).valid then _ else _
            rw [before, after]
            rfl
        | str s | int i | bool b => rfl

-----------------------------------------------------------------------------------------
-- Loading again
-----------------------------------------------------------------------------------------

/-- What was saved is loaded into an empty pool. -/
theorem loadToml_written (readsBack : formats.ReadsBack) {path : List Char} (named : path ≠ [])
    : loadToml formats (disk.write path (formats.printToml (document pool))) path .empty
      = .ok (PreferencePool.empty.setAll (document pool).table.items) := by
  have there : (disk.write path (formats.printToml (document pool))).read path
      = some (formats.printToml (document pool)) := by
    rw [Disk.read, if_neg named, Disk.write, if_pos rfl]
  rw [loadToml, there]
  dsimp only
  rw [readsBack]

/-- A save changes the mark only. -/
theorem save_store (writable : Bool)
    : ∃ dirty, (save formats p disk writable).1 = { p with userDirty := dirty } := by
  rw [save]
  split_ifs <;> exact ⟨_, rfl⟩

/-- Loading changes the user's pool and the mark only. -/
theorem load_store (writable : Bool)
    : ∃ user dirty, (loadUserWithMigration formats numbers p disk writable).1
        = { p with user, userDirty := dirty } := by
  rw [loadUserWithMigration]
  by_cases unnamed : p.userFile = []
  · rw [if_pos unnamed]
    exact ⟨_, _, rfl⟩
  · rw [if_neg unnamed]
    cases loadToml formats disk p.userFile p.user with
    | ok user => exact ⟨user, _, rfl⟩
    | error e =>
        cases disk.read (xmlPath p.userFile) with
        | none => exact ⟨_, _, rfl⟩
        | some text =>
            dsimp only
            split_ifs
            · obtain ⟨dirty, saved⟩ := save_store writable
              exact ⟨_, dirty, saved⟩
            · exact ⟨_, _, rfl⟩

/-- Nothing is set on the command line of a new store. -/
theorem create_runtime (defaultsFile userFile : List Char) (writable : Bool)
    : (create formats numbers defaultsFile userFile disk writable).1.runtime = .empty := by
  obtain ⟨user, dirty, made⟩ := load_store writable
  exact congrArg TomlPreferences.runtime made

/-- How the user's settings come in: nothing is written and the same would be read again, or
a legacy file is imported and waits to be saved, or it was saved already.
-/
theorem loadUserWithMigration_cases (named : p.userFile ≠ []) (clean : p.userDirty = false)
    (writable : Bool)
    : (∃ user, ∀ again, loadUserWithMigration formats numbers p disk again
          = ({ p with user }, disk))
      ∨ (∃ user, loadUserWithMigration formats numbers p disk writable
          = ({ p with user, userDirty := true }, disk))
      ∨ ∃ user, loadUserWithMigration formats numbers p disk writable
          = ({ p with user }, disk.write p.userFile (formats.printToml (document user))) := by
  simp only [loadUserWithMigration, if_neg named]
  cases loadToml formats disk p.userFile p.user with
  | ok user => exact .inl ⟨user, fun _ => rfl⟩
  | error e =>
      cases disk.read (xmlPath p.userFile) with
      | none => exact .inl ⟨p.user, fun _ => rfl⟩
      | some text =>
          cases imported : (importXml formats numbers text p.user).2 with
          | false => exact .inl ⟨(importXml formats numbers text p.user).1, by simp [imported]⟩
          | true =>
              right
              cases writable with
              | false =>
                  left
                  exact ⟨(importXml formats numbers text p.user).1, by simp [imported, save, named]⟩
              | true =>
                  right
                  exact ⟨(importXml formats numbers text p.user).1,
                    by simp [imported, save, named, clean]⟩

/-- A file that was written is another's content only under its own name. -/
theorem loaded_write {path other : List Char} (apart : other ≠ path) (text : content)
    (into : PreferencePool)
    : loaded formats (disk.write path text) other into = loaded formats disk other into := by
  have same : (disk.write path text).read other = disk.read other := by
    rw [Disk.read, Disk.read, Disk.write, if_neg apart]
  rw [loaded, loaded, loadToml, loadToml, same]

/-- A store made over files where a user pool was saved resembles the store of that pool. -/
theorem create_written (readsBack : formats.ReadsBack) {defaultsFile userFile : List Char}
    (named : userFile ≠ []) (apart : defaultsFile ≠ userFile) (again : Bool)
    (runtime : p.runtime = .empty) (defaults : p.defaults = loaded formats disk defaultsFile .empty)
    : Resembles
        (create formats numbers defaultsFile userFile
          (disk.write userFile (formats.printToml (document p.user))) again).1 p := by
  rw [create]
  simp only [loadUserWithMigration, if_neg named, loadToml_written readsBack named]
  exact ⟨runtime.symm, (loaded_write apart _ _).trans defaults.symm, .inr get_reloaded⟩

end TomlPreferences

/-- A call of a setter on the user's pool. -/
structure PreferenceCall where
  name : List Char
  sect : List Char
  setting : PreferenceSetting

namespace TomlPreferences

variable {content : Type} {formats : FileFormats content} {numbers : NumberReader}
  {disk : Disk content} {p old fresh : TomlPreferences} {pool : PreferencePool}

def setPrefs (p : TomlPreferences) (calls : List PreferenceCall) : TomlPreferences :=
  calls.foldl (fun p call => p.setPref call.name call.sect call.setting) p

/-- A store whose settings are in the files, up to what waits to be saved. -/
structure Recoverable (formats : FileFormats content) (numbers : NumberReader)
    (defaultsFile userFile : List Char) (disk : Disk content) (p : TomlPreferences)
    : Prop where
  userName : p.userFile = userFile
  runtime : p.runtime = .empty
  defaults : p.defaults = loaded formats disk defaultsFile .empty
  clean : p.userDirty = false → ∀ again,
    Resembles (create formats numbers defaultsFile userFile disk again).1 p

/-- A new store is recoverable. -/
theorem recoverable_create (readsBack : formats.ReadsBack) {defaultsFile userFile : List Char}
    (named : userFile ≠ []) (apart : defaultsFile ≠ userFile) (writable : Bool)
    : Recoverable formats numbers defaultsFile userFile
        (create formats numbers defaultsFile userFile disk writable).2
        (create formats numbers defaultsFile userFile disk writable).1 := by
  let base : TomlPreferences :=
    { defaultsFile, userFile, defaults := loaded formats disk defaultsFile .empty }
  rcases @loadUserWithMigration_cases content formats numbers disk base named rfl writable
    with ⟨user, read⟩ | ⟨user, pending⟩ | ⟨user, written⟩
  · have made : create formats numbers defaultsFile userFile disk writable
        = ({ base with user }, disk) := read writable
    rw [made]
    refine ⟨rfl, rfl, rfl, ?_⟩
    intro _ again
    have same : create formats numbers defaultsFile userFile disk again
        = ({ base with user }, disk) := read again
    rw [same]
    exact ⟨rfl, rfl, .inl rfl⟩
  · have made : create formats numbers defaultsFile userFile disk writable
        = ({ base with user, userDirty := true }, disk) := pending
    rw [made]
    exact ⟨rfl, rfl, rfl, fun clean => Bool.noConfusion clean⟩
  · have made : create formats numbers defaultsFile userFile disk writable
        = ({ base with user }, disk.write userFile (formats.printToml (document user))) := written
    rw [made]
    refine ⟨rfl, rfl, (loaded_write apart _ _).symm, ?_⟩
    intro _ again
    exact create_written (p := { base with user }) readsBack named apart again rfl rfl

/-- A setter leaves its work to be saved. -/
theorem Recoverable.setPrefs {defaultsFile userFile : List Char}
    (safe : Recoverable formats numbers defaultsFile userFile disk p)
    (calls : List PreferenceCall)
    : Recoverable formats numbers defaultsFile userFile disk (p.setPrefs calls) := by
  induction calls generalizing p with
  | nil => exact safe
  | cons call rest ih =>
      apply ih
      exact ⟨safe.userName, safe.runtime, safe.defaults,
        fun clean => Bool.noConfusion clean⟩

/-- A save brings everything into the files. -/
theorem Recoverable.save {defaultsFile userFile : List Char}
    (safe : Recoverable formats numbers defaultsFile userFile disk p)
    (readsBack : formats.ReadsBack) (named : userFile ≠ []) (apart : defaultsFile ≠ userFile)
    (again : Bool)
    : Resembles
        (create formats numbers defaultsFile userFile (TomlPreferences.save formats p disk true).2.1
          again).1
        p := by
  cases dirty : p.userDirty with
  | false =>
      have kept : (TomlPreferences.save formats p disk true).2.1 = disk := by
        simp [TomlPreferences.save, dirty]
      rw [kept]
      exact safe.clean dirty again
  | true =>
      have written : (TomlPreferences.save formats p disk true).2.1
          = disk.write userFile (formats.printToml (document p.user)) := by
        simp [TomlPreferences.save, dirty, safe.userName, named]
      rw [written]
      exact create_written readsBack named apart again safe.runtime safe.defaults

/-- After a save every accessor of a new store returns what the old store's returned, the text of
an unsigned value beyond the signed ones apart.
-/
theorem reload_agrees (readsBack : formats.ReadsBack) {defaultsFile userFile : List Char}
    (named : userFile ≠ []) (apart : defaultsFile ≠ userFile) (disk : Disk content)
    (calls : List PreferenceCall) (writable again : Bool)
    : let made := create formats numbers defaultsFile userFile disk writable
      let old := made.1.setPrefs calls
      let disk := (save formats old made.2 true).2.1
      let fresh := (create formats numbers defaultsFile userFile disk again).1
      ∀ name sect pers,
        fresh.isPreference name sect pers = old.isPreference name sect pers
        ∧ fresh.isSection sect pers = old.isSection sect pers
        ∧ (∀ default, fresh.getPrefInt numbers name sect default pers
            = old.getPrefInt numbers name sect default pers)
        ∧ (∀ default, fresh.getPrefUInt64 numbers name sect default pers
            = old.getPrefUInt64 numbers name sect default pers)
        ∧ (∀ default, fresh.getPrefBool name sect default pers
            = old.getPrefBool name sect default pers)
        ∧ (∀ default, fresh.getPrefColor numbers name sect default pers
            = old.getPrefColor numbers name sect default pers)
        ∧ ((∀ u, old.find name sect pers = some (.uint u) → u < 0x8000000000000000) →
            ∀ default, fresh.getPrefString name sect default pers
              = old.getPrefString name sect default pers) := by
  intro made old disk' fresh name sect pers
  have safe : Recoverable formats numbers defaultsFile userFile made.2 old :=
    (recoverable_create readsBack named apart writable).setPrefs calls
  have alike : Resembles fresh old := safe.save readsBack named apart again
  exact ⟨isPreference_agrees alike name sect pers, isSection_agrees alike sect pers,
    getPrefInt_agrees alike name sect pers, getPrefUInt64_agrees alike name sect pers,
    getPrefBool_agrees alike name sect pers, getPrefColor_agrees alike name sect pers,
    fun small default => getPrefString_agrees alike name sect pers default small⟩

/-- Files that are told apart by their kind. -/
inductive SampleFile
  | toml (doc : TomlTable)
  | xml (tokens : List Xml.Token)
  | broken

def sampleFormats : FileFormats SampleFile where
  parseToml
    | .toml doc => some doc
    | _ => none
  printToml doc := .toml doc.table
  readXml
    | .xml tokens => some tokens
    | _ => some [.invalid]

theorem readsBack_sampleFormats : sampleFormats.ReadsBack := fun _ => rfl

/-- Hexadecimal digits are read, and nothing else. -/
def sampleNumbers : NumberReader where
  toInt _ := none
  toULongLong _ := none
  toLongLong _ := none
  toUInt s :=
    if s = [] then none
    else (s.foldlM (fun v c => (TextStream.hexDigit c).map (16 * v + ·)) 0).map UInt32.ofNat

theorem hexDigit_digitChar {d : Nat} (small : d < 16) : TextStream.hexDigit d.digitChar = some d := by
  have all : ∀ d < 16, TextStream.hexDigit d.digitChar = some d := by decide
  exact all d small

theorem readsHex_sampleNumbers : SeqColor.ReadsHex sampleNumbers := by
  intro r g b
  have high (n : UInt8) : TextStream.hexDigit (n.toNat / 16).digitChar = some (n.toNat / 16) :=
    hexDigit_digitChar (by have := n.toNat_lt; omega)
  have low (n : UInt8) : TextStream.hexDigit (n.toNat % 16).digitChar = some (n.toNat % 16) :=
    hexDigit_digitChar (by omega)
  simp only [sampleNumbers, SeqColor.hexByte, List.cons_append, List.nil_append, reduceCtorEq,
    if_false, List.foldlM_cons, List.foldlM_nil, high, low, Option.map_some]
  change some (UInt32.ofNat _) = _
  congr 2
  omega

theorem reload_agrees_device
    : let made := create sampleFormats sampleNumbers "def.toml".toList "user.toml".toList
        (fun _ => none) true
      let old := made.1.setPrefs
        [⟨"Device".toList, "Network".toList, .string "eth0".toList⟩,
          ⟨"Types".toList, "Filters".toList, .uint64 5⟩]
      let disk := (save sampleFormats old made.2 true).2.1
      let fresh := (create sampleFormats sampleNumbers "def.toml".toList "user.toml".toList disk
        true).1
      fresh.getPrefUInt64 sampleNumbers "Types".toList "Filters".toList 0 .any
        = old.getPrefUInt64 sampleNumbers "Types".toList "Filters".toList 0 .any :=
  (reload_agrees readsBack_sampleFormats (by decide) (by decide) (fun _ => none)
    [⟨"Device".toList, "Network".toList, .string "eth0".toList⟩,
      ⟨"Types".toList, "Filters".toList, .uint64 5⟩] true true
    "Types".toList "Filters".toList .any).2.2.2.1 0

/-- The text of an unsigned value beyond the signed ones is another after a save. -/
theorem not_reload_agrees
    : let made := create sampleFormats sampleNumbers "def.toml".toList "user.toml".toList
        (fun _ => none) true
      let old := made.1.setPrefs
        [⟨"Types".toList, "Filters".toList, .uint64 0x8000000000000000⟩]
      let disk := (save sampleFormats old made.2 true).2.1
      let fresh := (create sampleFormats sampleNumbers "def.toml".toList "user.toml".toList disk
        true).1
      fresh.getPrefString "Types".toList "Filters".toList [] .any
          = "-9223372036854775808".toList
        ∧ old.getPrefString "Types".toList "Filters".toList [] .any
          = "9223372036854775808".toList := by
  decide +kernel

end TomlPreferences

end Scry
