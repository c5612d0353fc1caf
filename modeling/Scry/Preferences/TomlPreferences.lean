import Scry.Library.Xml
import Scry.Preferences.PreferencePool

/-! The preference store of the daemon: what was set on the command line, what the user set, and
what was shipped. The user's settings are read from a TOML file and written back to it, and are
taken over once from the XML file of an earlier version.
-/

namespace Scry

open TextStream

-----------------------------------------------------------------------------------------
-- Files
-----------------------------------------------------------------------------------------

/-- A node of a section that an accessor can read. -/
inductive TomlScalar
  | string (s : List Char)
  | boolean (b : Bool)
  | integer (i : Int64)
deriving DecidableEq

/-- A parsed document: its tables and their nodes by key. A top-level node that is no table and
a node of a table that is no such scalar are none.
-/
abbrev TomlTable :=
  OrderedMap (List Char) (Option (OrderedMap (List Char) (Option TomlScalar)))

/-- The document that a store prints. -/
abbrev PrintedToml := OrderedMap (List Char) (OrderedMap (List Char) TomlScalar)

/-- The formats of the files: `toml::parse_file`, which throws or not, the printing of a table,
and the tokens of an XML reader, where the file can be opened.
-/
structure FileFormats (content : Type) where
  parseToml : content → Option TomlTable
  printToml : PrintedToml → content
  readXml : content → Option (List Xml.Token)

/-- The table that a printed document is read as. -/
def PrintedToml.table (doc : PrintedToml) : TomlTable :=
  doc.mapValues fun nodes => some (nodes.mapValues some)

/-- What is printed is parsed back. -/
def FileFormats.ReadsBack {content : Type} (formats : FileFormats content) : Prop :=
  ∀ doc, formats.parseToml (formats.printToml doc) = some doc.table

/-- The contents of the files that exist. -/
abbrev Disk (content : Type) := List Char → Option content

/-- No file has an empty name. -/
def Disk.read {content : Type} (disk : Disk content) (path : List Char) : Option content :=
  if path = [] then none else disk path

/-- The file under a name with another content. -/
def Disk.write {content : Type} (disk : Disk content) (path : List Char) (text : content)
    : Disk content :=
  fun other => if other = path then some text else disk other

-----------------------------------------------------------------------------------------
-- The store
-----------------------------------------------------------------------------------------

/-- Which pools are asked, or written to. -/
structure Persistence where
  runtime : Bool := false
  user : Bool := false
  defaults : Bool := false
deriving DecidableEq

def Persistence.any : Persistence := ⟨true, true, true⟩

structure TomlPreferences where
  defaultsFile : List Char
  userFile : List Char
  runtime : PreferencePool := .empty
  user : PreferencePool := .empty
  defaults : PreferencePool := .empty
  userDirty : Bool := false

/-- What `loadToml` says of a file it did not load: "file not found", or what the parser says. -/
inductive LoadError
  | notFound
  | parseError
deriving DecidableEq

def TomlScalar.value : TomlScalar → PreferenceValue
  | .string s => .str s
  | .boolean b => .bool b
  | .integer i => .int i

/-- The values of a document in the order of its loops. -/
def TomlTable.items (doc : TomlTable) : List PreferenceItem :=
  doc.entries.flatMap fun (sect, node) =>
    match node with
    | none => []
    | some nodes =>
        nodes.entries.filterMap fun (name, node) => node.map fun s => ⟨sect, name, s.value⟩

namespace TomlPreferences

variable {content : Type} (formats : FileFormats content) (numbers : NumberReader)

def loadToml (disk : Disk content) (path : List Char) (into : PreferencePool)
    : Except LoadError PreferencePool :=
  match disk.read path with
  | none => .error .notFound
  | some text =>
      match formats.parseToml text with
      | none => .error .parseError
      | some doc => .ok (into.setAll doc.items)

/-- `xml.attributes().value(name)`. -/
def attributeValue (attributes : List (List Char × List Char)) (name : String) : List Char :=
  (attributes.lookup name.toList).getD []

/-- The value of a legacy element. -/
def legacyValue (name raw : List Char) : PreferenceValue :=
  if name = "bool".toList then .bool (SeqColor.sameName raw "true")
  else if name = "int".toList then .int ((numbers.toLongLong raw).getD 0)
  else .str raw

/-- The values of the legacy file, with the section and the property that are open. -/
def legacyItems (sect property : List Char) : List Xml.Token → List PreferenceItem
  | [] => []
  | .startElement name attributes :: rest =>
      if name = "section".toList then legacyItems (attributeValue attributes "name") property rest
      else if name = "property".toList then legacyItems sect (attributeValue attributes "name") rest
      else if sect ≠ [] ∧ property ≠ [] ∧ (attributes.lookup "value".toList).isSome then
        ⟨sect, property, legacyValue numbers name (attributeValue attributes "value")⟩
          :: legacyItems sect property rest
      else legacyItems sect property rest
  | .endElement name :: rest =>
      if name = "property".toList then legacyItems sect [] rest
      else if name = "section".toList then legacyItems [] property rest
      else legacyItems sect property rest
  | _ :: rest => legacyItems sect property rest

/-- `importXml`: the pool is written to even where the file turns out unreadable. -/
def importXml (text : content) (into : PreferencePool) : PreferencePool × Bool :=
  match formats.readXml text with
  | none => (into, false)
  | some tokens =>
      let items := legacyItems numbers [] [] tokens
      (into.setAll items, !tokens.contains .invalid && !items.isEmpty)

/-- The legacy file beside a user file: its suffix is replaced, or the new one is added. -/
def xmlPath (userFile : List Char) : List Char :=
  let kept := userFile.length - 5
  let base :=
    if (userFile.drop kept).map SeqColor.foldCase = ".toml".toList then userFile.take kept
    else userFile
  base ++ ".xml".toList

/-- The node a value is saved as: a TOML integer is signed. -/
def savedNode : PreferenceValue → TomlScalar
  | .str s => .string s
  | .int i => .integer i
  | .uint u => .integer u.toInt64
  | .bool b => .boolean b

/-- The document that is saved. -/
def document (pool : PreferencePool) : PrintedToml :=
  pool.sections.mapValues fun values => values.mapValues savedNode

/-- `save`, where the file can be opened and committed or not. -/
def save (p : TomlPreferences) (disk : Disk content) (writable : Bool)
    : TomlPreferences × Disk content × Bool :=
  if !p.userDirty || p.userFile = [] then (p, disk, true)
  else if !writable then (p, disk, false)
  else
    ({ p with userDirty := false }, disk.write p.userFile (formats.printToml (document p.user)),
      true)

def loadUserWithMigration (p : TomlPreferences) (disk : Disk content) (writable : Bool)
    : TomlPreferences × Disk content :=
  if p.userFile = [] then (p, disk)
  else
    match loadToml formats disk p.userFile p.user with
    | .ok user => ({ p with user }, disk)
    | .error _ =>
        match disk.read (xmlPath p.userFile) with
        | none => (p, disk)
        | some text =>
            let imported := importXml formats numbers text p.user
            let p := { p with user := imported.1 }
            if imported.2 then
              let saved := save formats { p with userDirty := true } disk writable
              (saved.1, saved.2.1)
            else (p, disk)

/-- The pool after a file was loaded into it: one that fails leaves it alone. -/
def loaded (disk : Disk content) (path : List Char) (into : PreferencePool) : PreferencePool :=
  match loadToml formats disk path into with
  | .ok pool => pool
  | .error _ => into

/-- The constructor. -/
def create (defaultsFile userFile : List Char) (disk : Disk content) (writable : Bool)
    : TomlPreferences × Disk content :=
  let p : TomlPreferences := { defaultsFile, userFile }
  let p := { p with defaults := loaded formats disk defaultsFile p.defaults }
  loadUserWithMigration formats numbers p disk writable

def revert (p : TomlPreferences) (disk : Disk content) (writable : Bool)
    : TomlPreferences × Disk content :=
  let p := { p with user := .empty, defaults := .empty, userDirty := false }
  let p := { p with defaults := loaded formats disk p.defaultsFile p.defaults }
  loadUserWithMigration formats numbers p disk writable

-----------------------------------------------------------------------------------------
-- Accessors
-----------------------------------------------------------------------------------------

/-- The pools that are asked, in their order. -/
def pools (p : TomlPreferences) (pers : Persistence) : List PreferencePool :=
  (if pers.runtime then [p.runtime] else []) ++ (if pers.user then [p.user] else [])
    ++ (if pers.defaults then [p.defaults] else [])

def find (p : TomlPreferences) (name sect : List Char) (pers : Persistence)
    : Option PreferenceValue :=
  (p.pools pers).findSome? fun pool => pool.get sect name

def isPreference (p : TomlPreferences) (name sect : List Char) (pers : Persistence) : Bool :=
  (p.find name sect pers).isSome

def isSection (p : TomlPreferences) (sect : List Char) (pers : Persistence) : Bool :=
  (p.pools pers).any fun pool => pool.contains sect

def getPrefString (p : TomlPreferences) (name sect default : List Char) (pers : Persistence)
    : List Char :=
  match p.find name sect pers with
  | none => default
  | some v => v.toText

def getPrefInt (p : TomlPreferences) (name sect : List Char) (default : Int32)
    (pers : Persistence)
    : Int32 :=
  match p.find name sect pers with
  | none => default
  | some (.int i) => i.toInt32
  | some (.uint u) => u.toInt64.toInt32
  | some (.bool b) => if b then 1 else 0
  | some (.str s) => (numbers.toInt s).getD default

def getPrefUInt64 (p : TomlPreferences) (name sect : List Char) (default : UInt64)
    (pers : Persistence)
    : UInt64 :=
  match p.find name sect pers with
  | none => default
  | some (.uint u) => u
  | some (.int i) => i.toUInt64
  | some (.bool b) => if b then 1 else 0
  | some (.str s) => (numbers.toULongLong s).getD default

def getPrefBool (p : TomlPreferences) (name sect : List Char) (default : Bool)
    (pers : Persistence)
    : Bool :=
  match p.find name sect pers with
  | none => default
  | some (.bool b) => b
  | some (.int i) => i ≠ 0
  | some (.uint u) => u ≠ 0
  | some (.str s) =>
      let s := (trimmed s).map Char.toLower
      if s = "true".toList ∨ s = ['1'] then true
      else if s = "false".toList ∨ s = ['0'] then false
      else default

def getPrefColor (p : TomlPreferences) (name sect : List Char) (default : SeqColor)
    (pers : Persistence)
    : SeqColor :=
  match p.find name sect pers with
  | none => default
  | some v =>
      let c := SeqColor.ofText numbers v.toText
      if c.valid then c else default

/-- The first pool that is asked is written to. -/
def put (p : TomlPreferences) (name sect : List Char) (v : PreferenceValue) (pers : Persistence)
    : TomlPreferences :=
  if pers.runtime then { p with runtime := p.runtime.set ⟨sect, name, v⟩ }
  else if pers.user then { p with user := p.user.set ⟨sect, name, v⟩, userDirty := true }
  else if pers.defaults then { p with defaults := p.defaults.set ⟨sect, name, v⟩ }
  else p

end TomlPreferences

/-- What is handed to one of the setters. -/
inductive PreferenceSetting
  | string (value : List Char)
  | int (value : Int32)
  | uint64 (value : UInt64)
  | bool (value : Bool)
  | color (value : SeqColor)

/-- What a setter stores. -/
def PreferenceSetting.stored : PreferenceSetting → PreferenceValue
  | .string value => .str value
  | .int value => .int value.toInt64
  | .uint64 value => .uint value
  | .bool value => .bool value
  | .color value => .str value.name

namespace TomlPreferences

/-- `setPrefString`, `setPrefInt`, `setPrefUInt64`, `setPrefBool` and `setPrefColor`. -/
def setPref (p : TomlPreferences) (name sect : List Char) (setting : PreferenceSetting)
    (pers : Persistence := { user := true })
    : TomlPreferences :=
  p.put name sect setting.stored pers

end TomlPreferences

end Scry
