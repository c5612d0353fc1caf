import Scry.Preferences.Reload
import Scry.Session.Feeds

/-! The preferences that clients share.
Three texts of the store are published. A client that changes one changes it in the store, on disk
and for everyone; every other edit is refused without a trace. So all clients show what the store
has, and what a daemon would start with that is made over the same files.
-/

namespace Scry

/-- The value of a `Pref` message, by its case. -/
inductive PrefValue
  | notSet
  | string (value : List Char)
  | int (value : Int64)
  | bool (value : Bool)
  deriving DecidableEq

/-- A `Pref` message: a preference by its section and key, with a value. -/
structure Pref where
  sect : List Char
  key : List Char
  value : PrefValue
  deriving DecidableEq

/-- What the capture is told to listen to. -/
inductive MonitorCall
  | device (dev : List Char)
  | nextClient
  | ipClient (ip : List Char)
  deriving DecidableEq

/-- A preference that is published, with the default of its text. -/
structure PublishedPref where
  sect : List Char
  key : List Char
  default : List Char
  deriving DecidableEq

/-- The broker: the store it reads and writes, and the files under it. -/
structure PrefsBroker (content : Type) where
  store : TomlPreferences
  disk : Disk content

namespace PrefsBroker

def kInterfaceSection : List Char := "Interface".toList
def kDateTimeFormatKey : List Char := "DateTimeFormat".toList
def kDateTimeFormatDefault : List Char := "ddd MMM dd,yyyy - hh:mm ap".toList

def kNetworkSection : List Char := "Network".toList
def kDeviceKey : List Char := "Device".toList
def kDeviceDefault : List Char := []
def kIPKey : List Char := "IP".toList
def kIPDefault : List Char := "127.0.0.0".toList

def dateTimeFormat : PublishedPref :=
  ⟨kInterfaceSection, kDateTimeFormatKey, kDateTimeFormatDefault⟩

def device : PublishedPref := ⟨kNetworkSection, kDeviceKey, kDeviceDefault⟩

def clientIp : PublishedPref := ⟨kNetworkSection, kIPKey, kIPDefault⟩

/-- The preferences of a snapshot in their order. -/
def published : List PublishedPref := [dateTimeFormat, device, clientIp]

/-- The text of a published preference in a store. -/
def shown (p : TomlPreferences) (e : PublishedPref) : List Char :=
  p.getPrefString e.key e.sect e.default .any

/-- `fillSnapshot`. -/
def fillSnapshot (p : TomlPreferences) : List Pref :=
  published.map fun e => ⟨e.sect, e.key, .string (shown p e)⟩

variable {content : Type} (formats : FileFormats content)

/-- A text set and saved, where the file can be written or not. -/
def setSaved (b : PrefsBroker content) (key sect value : List Char) (writable : Bool)
    : PrefsBroker content :=
  let saved := (b.store.setPref key sect (.string value)).save formats b.disk writable
  { store := saved.1, disk := saved.2.1 }

/-- `apply`: what the broker comes to, whether it signals the preference, and what it tells the
capture, if there is one.
-/
def apply (b : PrefsBroker content) (pref : Pref) (writable : Bool)
    : PrefsBroker content × Bool × Option MonitorCall :=
  if pref.sect = kInterfaceSection ∧ pref.key = kDateTimeFormatKey then
    match pref.value with
    | .string value => (b.setSaved formats pref.key pref.sect value writable, true, none)
    | _ => (b, false, none)
  else if pref.sect = kNetworkSection ∧ pref.key = kDeviceKey then
    match pref.value with
    | .string dev =>
        (b.setSaved formats pref.key pref.sect dev writable, true,
          if dev ≠ [] then some (.device dev) else none)
    | _ => (b, false, none)
  else if pref.sect = kNetworkSection ∧ pref.key = kIPKey then
    match pref.value with
    | .string ip =>
        (b.setSaved formats pref.key pref.sect ip writable, true,
          some (if ip = [] then .nextClient else .ipClient ip))
    | _ => (b, false, none)
  else (b, false, none)

/-- A preference is set that is published, and to a text: what is accepted. -/
def Accepts (pref : Pref) (value : List Char) : Prop :=
  pref.value = .string value ∧ ∃ e ∈ published, pref.sect = e.sect ∧ pref.key = e.key

/-- An edit is accepted, saved and signalled, or leaves everything alone. -/
theorem apply_cases (b : PrefsBroker content) (pref : Pref) (writable : Bool)
    : (∃ value, Accepts pref value
        ∧ (b.apply formats pref writable).1 = b.setSaved formats pref.key pref.sect value writable
        ∧ (b.apply formats pref writable).2.1 = true)
      ∨ (∀ value, ¬ Accepts pref value) ∧ b.apply formats pref writable = (b, false, none) := by
  have accepted {value : List Char} (e : PublishedPref) (listed : e ∈ published)
      (text : pref.value = .string value) (named : pref.sect = e.sect ∧ pref.key = e.key)
      : Accepts pref value := ⟨text, e, listed, named⟩
  have mistyped {other : PrefValue} (kind : pref.value = other)
      (text : ∀ value, other ≠ .string value) (value : List Char)
      : ¬ Accepts pref value := fun accepts => text value (kind.symm.trans accepts.1)
  rw [apply]
  by_cases format : pref.sect = kInterfaceSection ∧ pref.key = kDateTimeFormatKey
  · rw [if_pos format]
    cases value : pref.value with
    | string text =>
        exact .inl ⟨text, accepted dateTimeFormat (by simp [published]) value format, rfl, rfl⟩
    | notSet | int _ | bool _ => exact .inr ⟨mistyped value (by simp), rfl⟩
  rw [if_neg format]
  by_cases dev : pref.sect = kNetworkSection ∧ pref.key = kDeviceKey
  · rw [if_pos dev]
    cases value : pref.value with
    | string text =>
        exact .inl ⟨text, accepted device (by simp [published]) value dev, rfl, rfl⟩
    | notSet | int _ | bool _ => exact .inr ⟨mistyped value (by simp), rfl⟩
  rw [if_neg dev]
  by_cases ip : pref.sect = kNetworkSection ∧ pref.key = kIPKey
  · rw [if_pos ip]
    cases value : pref.value with
    | string text =>
        exact .inl ⟨text, accepted clientIp (by simp [published]) value ip, rfl, rfl⟩
    | notSet | int _ | bool _ => exact .inr ⟨mistyped value (by simp), rfl⟩
  · refine .inr ⟨fun value accepts => ?_, if_neg ip⟩
    obtain ⟨_, e, listed, named⟩ := accepts
    simp only [published, List.mem_cons, List.not_mem_nil, or_false] at listed
    rcases listed with rfl | rfl | rfl
    · exact format named
    · exact dev named
    · exact ip named

end PrefsBroker

-----------------------------------------------------------------------------------------
-- What sessions are sent
-----------------------------------------------------------------------------------------

/-- The bodies that tell of preferences. -/
inductive PrefBody
  | other
  | prefs (all : List Pref)
  | prefChanged (pref : Pref)

/-- What happens to the store: an edit of a client, and what the other parts of the daemon write,
which is published nowhere, and save.
-/
inductive PrefsOp
  | apply (pref : Pref) (writable : Bool)
  | setPref (call : PreferenceCall)
      (unpublished : ∀ e ∈ PrefsBroker.published, ¬ (e.sect = call.sect ∧ e.key = call.name))
  | save (writable : Bool)

namespace PrefsBroker

variable {content : Type} (formats : FileFormats content)

def step (op : PrefsOp) (b : PrefsBroker content) : PrefsBroker content :=
  match op with
  | .apply pref writable => (b.apply formats pref writable).1
  | .setPref call _ => { b with store := b.store.setPref call.name call.sect call.setting }
  | .save writable =>
      let saved := b.store.save formats b.disk writable
      { store := saved.1, disk := saved.2.1 }

/-- What an operation makes an adapter send. -/
def sends (op : PrefsOp) (b : PrefsBroker content) : List PrefBody :=
  match op with
  | .apply pref writable => if (b.apply formats pref writable).2.1 then [.prefChanged pref] else []
  | _ => []

def feed : FeedSource (PrefsBroker content) PrefsOp PrefBody where
  step := step formats
  sends := sends formats
  early _ := false
  snapshot _ := .other
  initial b := [.prefs (fillSnapshot b.store)]

end PrefsBroker

/-- The texts that a client holds, by section and key. -/
abbrev HeldPrefs := List Char → List Char → Option (List Char)

namespace HeldPrefs

def put (held : HeldPrefs) (pref : Pref) : HeldPrefs :=
  match pref.value with
  | .string value => fun sect key =>
      if sect = pref.sect ∧ key = pref.key then some value else held sect key
  | _ => held

/-- A client takes over what it is sent. -/
def receive (held : HeldPrefs) : PrefBody → HeldPrefs
  | .other => held
  | .prefs all => all.foldl put held
  | .prefChanged pref => held.put pref

/-- The client holds the texts of the store. -/
def Shows (held : HeldPrefs) (p : TomlPreferences) : Prop :=
  ∀ e ∈ PrefsBroker.published, held e.sect e.key = some (PrefsBroker.shown p e)

/-- A snapshot shows its store, whatever was held. -/
theorem shows_snapshot (held : HeldPrefs) (p : TomlPreferences)
    : ((PrefsBroker.fillSnapshot p).foldl put held).Shows p := by
  intro e listed
  simp only [PrefsBroker.published, List.mem_cons, List.not_mem_nil, or_false] at listed
  rcases listed with rfl | rfl | rfl
  · have device : PrefsBroker.kInterfaceSection ≠ PrefsBroker.kNetworkSection := by decide
    simp [PrefsBroker.fillSnapshot, PrefsBroker.published, put, PrefsBroker.dateTimeFormat,
      PrefsBroker.device, PrefsBroker.clientIp, device]
  · have ip : PrefsBroker.kDeviceKey ≠ PrefsBroker.kIPKey := by decide
    simp [PrefsBroker.fillSnapshot, PrefsBroker.published, put, PrefsBroker.device,
      PrefsBroker.clientIp, ip]
  · simp [PrefsBroker.fillSnapshot, PrefsBroker.published, put, PrefsBroker.clientIp]

end HeldPrefs

-----------------------------------------------------------------------------------------
-- The store is shown
-----------------------------------------------------------------------------------------

namespace TomlPreferences

variable {content : Type} {formats : FileFormats content} {numbers : NumberReader}
  {disk : Disk content} {p : TomlPreferences}

/-- A text that is read as it is stored: no unsigned number, which no file has. -/
def Signed (pool : PreferencePool) (sect name : List Char) : Prop :=
  ∀ u, pool.get sect name ≠ some (.uint u)

theorem signed_setAll {items : List PreferenceItem} {pool : PreferencePool} {sect name : List Char}
    (kinds : ∀ item ∈ items, ∀ u, item.value ≠ .uint u) (signed : Signed pool sect name)
    : Signed (pool.setAll items) sect name := by
  intro u found
  rw [PreferencePool.get_setAll] at found
  cases last : items.reverse.find? fun item => item.sect = sect ∧ item.name = name with
  | none =>
      rw [last] at found
      exact signed u found
  | some item =>
      rw [last] at found
      have listed := List.mem_reverse.mp (List.mem_of_find?_eq_some last)
      exact kinds item listed u (Option.some.inj found)

/-- No value of a TOML file is unsigned. -/
theorem signed_items (doc : TomlTable) : ∀ item ∈ doc.items, ∀ u, item.value ≠ .uint u := by
  intro item member u kind
  obtain ⟨⟨sect, node⟩, _, inside⟩ := List.mem_flatMap.mp member
  cases node with
  | none => cases inside
  | some nodes =>
      obtain ⟨⟨name, scalar⟩, _, made⟩ := List.mem_filterMap.mp inside
      obtain ⟨s, rfl, rfl⟩ := Option.map_eq_some_iff.mp made
      cases s <;> cases kind

/-- No value of a legacy file is unsigned, by induction on its tokens. -/
theorem signed_legacyItems (tokens : List Xml.Token) (sect property : List Char)
    : ∀ item ∈ legacyItems numbers sect property tokens, ∀ u, item.value ≠ .uint u := by
  induction tokens generalizing sect property with
  | nil => simp [legacyItems]
  | cons token rest ih =>
      cases token with
      | startElement name attributes =>
          rw [legacyItems]
          split_ifs
          · exact ih _ _
          · exact ih _ _
          · refine List.forall_mem_cons.mpr ⟨fun u => ?_, ih _ _⟩
            simp only [legacyValue]
            split_ifs <;> simp
          · exact ih _ _
      | endElement name =>
          rw [legacyItems]
          split_ifs
          · exact ih _ _
          · exact ih _ _
          · exact ih _ _
      | _ => exact ih _ _

theorem signed_loadToml {path : List Char} {into pool : PreferencePool} {sect name : List Char}
    (signed : Signed into sect name) (loaded : loadToml formats disk path into = .ok pool)
    : Signed pool sect name := by
  rw [loadToml] at loaded
  cases text : disk.read path with
  | none => simp [text] at loaded
  | some text' =>
      cases doc : formats.parseToml text' with
      | none => simp [text, doc] at loaded
      | some doc' =>
          simp only [text, doc, Except.ok.injEq] at loaded
          exact loaded ▸ signed_setAll (signed_items doc') signed

/-- What a new store has of the user is signed. -/
theorem signed_create (defaultsFile userFile : List Char) (writable : Bool)
    (sect name : List Char)
    : Signed (create formats numbers defaultsFile userFile disk writable).1.user sect name
      ∧ Signed (create formats numbers defaultsFile userFile disk writable).1.defaults sect
          name := by
  have empty : Signed .empty sect name := fun _ => by simp
  have defaults : Signed (loaded formats disk defaultsFile .empty) sect name := by
    rw [loaded]
    cases read : loadToml formats disk defaultsFile .empty with
    | ok pool => exact signed_loadToml empty read
    | error _ => exact empty
  have imported (text : content)
      : Signed (importXml formats numbers text .empty).1 sect name := by
    rw [importXml]
    cases formats.readXml text with
    | none => exact empty
    | some tokens => exact signed_setAll (signed_legacyItems tokens [] []) empty
  simp only [create, loadUserWithMigration]
  split_ifs with unnamed
  · exact ⟨empty, defaults⟩
  cases read : loadToml formats disk userFile .empty with
  | ok user => exact ⟨signed_loadToml empty read, defaults⟩
  | error _ =>
      cases old : disk.read (xmlPath userFile) with
      | none => exact ⟨empty, defaults⟩
      | some text =>
          dsimp only
          split_ifs
          · rw [save]
            split_ifs
            all_goals exact ⟨imported text, defaults⟩
          · exact ⟨imported text, defaults⟩

/-- A save, of a file that can be written or not, leaves a recoverable store. -/
theorem Recoverable.saved {defaultsFile userFile : List Char}
    (safe : Recoverable formats numbers defaultsFile userFile disk p)
    (readsBack : formats.ReadsBack) (named : userFile ≠ []) (apart : defaultsFile ≠ userFile)
    (writable : Bool)
    : Recoverable formats numbers defaultsFile userFile
        (TomlPreferences.save formats p disk writable).2.1
        (TomlPreferences.save formats p disk writable).1 := by
  rw [TomlPreferences.save]
  split_ifs with nothing closed
  · exact safe
  · exact safe
  · dsimp only
    rw [safe.userName]
    refine ⟨rfl, safe.runtime, safe.defaults.trans (loaded_write apart _ _).symm, ?_⟩
    intro _ again
    have made := @create_written _ _ numbers _ _ readsBack _ _ named apart again safe.runtime
      safe.defaults
    exact ⟨made.runtime, made.defaults, made.user⟩

end TomlPreferences

namespace PrefsBroker

variable {content : Type} {formats : FileFormats content} {numbers : NumberReader}
  {defaultsFile userFile : List Char} {b : PrefsBroker content}

/-- The store of a running daemon: its settings are in its files, up to what waits to be saved,
and no text that is published is kept as an unsigned number.
-/
structure Sound (formats : FileFormats content) (numbers : NumberReader)
    (defaultsFile userFile : List Char) (b : PrefsBroker content)
    : Prop where
  recoverable : b.store.Recoverable formats numbers defaultsFile userFile b.disk
  signed : ∀ e ∈ published, ∀ u, b.store.find e.key e.sect .any ≠ some (.uint u)

/-- A daemon over its files. -/
def fresh (formats : FileFormats content) (numbers : NumberReader)
    (defaultsFile userFile : List Char) (disk : Disk content) (writable : Bool)
    : PrefsBroker content :=
  let made := TomlPreferences.create formats numbers defaultsFile userFile disk writable
  { store := made.1, disk := made.2 }

theorem sound_fresh (readsBack : formats.ReadsBack) (named : userFile ≠ [])
    (apart : defaultsFile ≠ userFile) (disk : Disk content) (writable : Bool)
    : (fresh formats numbers defaultsFile userFile disk writable).Sound formats numbers
        defaultsFile userFile where
  recoverable := TomlPreferences.recoverable_create readsBack named apart writable
  signed := by
    intro e _ u found
    obtain ⟨user, defaults⟩ := @TomlPreferences.signed_create _ formats numbers disk defaultsFile
      userFile writable e.sect e.key
    have runtime := @TomlPreferences.create_runtime _ formats numbers disk defaultsFile userFile
      writable
    rw [fresh, TomlPreferences.find_any runtime] at found
    rcases Option.or_eq_some_iff.mp found with there | ⟨_, there⟩
    · exact user u there
    · exact defaults u there

theorem Sound.setPref (sound : b.Sound formats numbers defaultsFile userFile)
    (call : PreferenceCall)
    (signed : ∀ e ∈ published, e.sect = call.sect ∧ e.key = call.name →
      ∀ u, call.setting.stored ≠ .uint u)
    : Sound formats numbers defaultsFile userFile
        { b with store := b.store.setPref call.name call.sect call.setting } where
  recoverable := sound.recoverable.setPrefs [call]
  signed := by
    intro e listed u found
    rw [TomlPreferences.find_setPref sound.recoverable.runtime] at found
    split_ifs at found with same
    · exact signed e listed same u (Option.some.inj found)
    · exact sound.signed e listed u found

theorem Sound.save (sound : b.Sound formats numbers defaultsFile userFile)
    (readsBack : formats.ReadsBack) (named : userFile ≠ []) (apart : defaultsFile ≠ userFile)
    (writable : Bool)
    : Sound formats numbers defaultsFile userFile
        { store := (b.store.save formats b.disk writable).1
          disk := (b.store.save formats b.disk writable).2.1 } where
  recoverable := sound.recoverable.saved readsBack named apart writable
  signed := by
    obtain ⟨dirty, same⟩ := @TomlPreferences.save_store _ formats b.disk b.store writable
    rw [same]
    exact sound.signed

theorem Sound.setSaved (sound : b.Sound formats numbers defaultsFile userFile)
    (readsBack : formats.ReadsBack) (named : userFile ≠ []) (apart : defaultsFile ≠ userFile)
    (key sect value : List Char) (writable : Bool)
    : (b.setSaved formats key sect value writable).Sound formats numbers defaultsFile userFile :=
  (sound.setPref ⟨key, sect, .string value⟩ fun _ _ _ _ => by
    simp [PreferenceSetting.stored]).save readsBack named apart writable

theorem Sound.step (sound : b.Sound formats numbers defaultsFile userFile)
    (readsBack : formats.ReadsBack) (named : userFile ≠ []) (apart : defaultsFile ≠ userFile)
    (op : PrefsOp)
    : (b.step formats op).Sound formats numbers defaultsFile userFile := by
  cases op with
  | apply pref writable =>
      simp only [PrefsBroker.step]
      rcases b.apply_cases formats pref writable with ⟨value, _, next, _⟩ | ⟨_, refused⟩
      · rw [next]
        exact sound.setSaved readsBack named apart _ _ _ _
      · rw [refused]
        exact sound
  | setPref call unpublished =>
      exact sound.setPref call fun e listed same => absurd same (unpublished e listed)
  | save writable => exact sound.save readsBack named apart writable

/-- What is published after a setter. -/
theorem shown_setPref (runtime : b.store.runtime = .empty) (call : PreferenceCall)
    (e : PublishedPref)
    : shown (b.store.setPref call.name call.sect call.setting) e
      = if e.sect = call.sect ∧ e.key = call.name then call.setting.stored.toText
        else shown b.store e := by
  rw [shown, TomlPreferences.getPrefString, TomlPreferences.find_setPref runtime]
  split_ifs with same <;> rfl

/-- A save publishes nothing new. -/
theorem shown_save (p : TomlPreferences) (disk : Disk content) (writable : Bool)
    (e : PublishedPref)
    : shown (p.save formats disk writable).1 e = shown p e := by
  obtain ⟨dirty, same⟩ := @TomlPreferences.save_store _ formats disk p writable
  rw [same]
  rfl

theorem shown_setSaved (runtime : b.store.runtime = .empty) (key sect value : List Char)
    (writable : Bool) (e : PublishedPref)
    : shown (b.setSaved formats key sect value writable).store e
      = if e.sect = sect ∧ e.key = key then value else shown b.store e := by
  rw [setSaved, shown_save]
  exact shown_setPref runtime ⟨key, sect, .string value⟩ e

/-- Whoever shows the store shows it after an operation and what that sends. -/
theorem shows_step (runtime : b.store.runtime = .empty) {held : HeldPrefs}
    (shows : held.Shows b.store) (op : PrefsOp)
    : (FeedSource.read HeldPrefs.receive held (b.sends formats op)).Shows
        (b.step formats op).store := by
  cases op with
  | apply pref writable =>
      simp only [PrefsBroker.step, sends]
      rcases b.apply_cases formats pref writable with ⟨value, ⟨text, _⟩, next, signalled⟩ |
        ⟨_, refused⟩
      · rw [next, signalled, if_pos rfl]
        intro e listed
        rw [shown_setSaved runtime]
        simp only [FeedSource.read, List.foldl_cons, List.foldl_nil, HeldPrefs.receive,
          HeldPrefs.put, text]
        split_ifs
        · rfl
        · exact shows e listed
      · rw [refused]
        exact shows
  | setPref call unpublished =>
      intro e listed
      rw [PrefsBroker.step, shown_setPref runtime, if_neg (unpublished e listed)]
      exact shows e listed
  | save writable =>
      intro e listed
      rw [PrefsBroker.step, shown_save]
      exact shows e listed

theorem followed (readsBack : formats.ReadsBack) (named : userFile ≠ [])
    (apart : defaultsFile ≠ userFile)
    : (feed formats).Followed HeldPrefs.receive (fun _ _ => none)
        (Sound formats numbers defaultsFile userFile) (fun held b => held.Shows b.store) where
  keeps _ op sound := sound.step readsBack named apart op
  greets b waiting _ _ := by
    rw [← List.cons_append, FeedSource.read_append]
    exact HeldPrefs.shows_snapshot _ b.store
  follows _ op _ sound shows := shows_step sound.recoverable.runtime shows op
  refreshes _ _ _ shows := shows

/-- Two clients subscribe, one before and one after an edit; a wrong one is refused. -/
def editRun : List (FeedEvent PrefsOp) :=
  [.opened "tab" .noop, .subscribed "tab" (fun _ => 1),
    .operate (.apply ⟨kNetworkSection, kDeviceKey, .string "eth0".toList⟩ false) (fun _ => 2),
    .opened "phone" .noop, .subscribed "phone" (fun _ => 3),
    .operate (.apply ⟨kNetworkSection, kIPKey, .int 5⟩ true) (fun _ => 4)]

end PrefsBroker

end Scry
