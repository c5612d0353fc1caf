import Scry.Library.OrderedMap
import Scry.Library.Xml

/-! The filters of spawns: rules by type, the mask that they give a string, and the file that
they are saved to and loaded from.
`QXmlStreamReader` is a parameter, a function from the text of a file to the tokens of it, and
so is what `QRegularExpression` makes of a pattern.
-/

namespace Scry

/-- What `QRegularExpression` tells of patterns. -/
structure RegularExpressions where
  isValid : List Char → Bool
  /-- Whether a pattern, with regard to case or without, occurs in a string. -/
  occursIn : (caseSensitive : Bool) → (pattern : List Char) → (string : List Char) → Bool

-----------------------------------------------------------------------------------------
-- One rule
-----------------------------------------------------------------------------------------

/-- A rule. `pattern` and `caseSensitive` are those of `m_regexp`. -/
structure FilterItem where
  pattern : List Char
  caseSensitive : Bool
  originalPattern : List Char
  minLevel : UInt8
  maxLevel : UInt8
deriving DecidableEq, Repr

namespace FilterItem

/-- The replacement of every `Name:`, however it is spelled. -/
def markHashOptional : List Char → List Char
  | n :: a :: m :: e :: colon :: rest =>
      if [n, a, m, e, colon].map Char.toLower = "name:".toList then
        "Name:#?".toList ++ markHashOptional rest
      else n :: markHashOptional (a :: m :: e :: colon :: rest)
  | c :: rest => c :: markHashOptional rest
  | [] => []

def init (regexString : List Char) (caseSensitive : Bool) (minLevel maxLevel : UInt8)
    : FilterItem where
  pattern := markHashOptional regexString
  caseSensitive := caseSensitive
  originalPattern := regexString
  minLevel := minLevel
  maxLevel := maxLevel

def valid (re : RegularExpressions) (item : FilterItem) : Bool := re.isValid item.pattern

/-- A number as `QTextStream` writes it. -/
def number (n : UInt8) : List Char := Nat.toDigits 10 n.toNat

def save (item : FilterItem) (indent : List Char) : List Char :=
  indent ++ ("<oldfilter>".toList
    ++ ((if item.pattern = [] then []
        else "<regex>".toList ++ (item.originalPattern ++ "</regex>".toList))
      ++ ((if item.minLevel = 0 ∧ item.maxLevel = 0 then []
          else "<level".toList
            ++ ((if item.minLevel = 0 then []
                else " min=\"".toList ++ (number item.minLevel ++ "\"".toList))
              ++ ((if item.maxLevel = 0 then []
                  else " max=\"".toList ++ (number item.maxLevel ++ "\"".toList))
                ++ "/>".toList)))
        ++ "</oldfilter>\n".toList)))

def isFiltered (re : RegularExpressions) (item : FilterItem) (filterString : List Char)
    (level : UInt8)
    : Bool :=
  if !re.isValid item.pattern then false
  else if re.occursIn item.caseSensitive item.pattern filterString then
    if 0 < item.minLevel ∨ 0 < item.maxLevel then
      if item.maxLevel ≠ item.minLevel then
        decide (item.minLevel ≤ level ∧ level ≤ item.maxLevel)
      else decide (level = item.minLevel)
    else true
  else false

end FilterItem

-----------------------------------------------------------------------------------------
-- The rules of one type
-----------------------------------------------------------------------------------------

structure Filter where
  caseSensitive : Bool
  filterItems : List FilterItem
deriving DecidableEq, Repr

namespace Filter

def isFiltered (re : RegularExpressions) (f : Filter) (filterString : List Char) (level : UInt8)
    : Bool :=
  f.filterItems.any fun item => item.isFiltered re filterString level

/-- The first item of a name, which is its pattern as it is searched for. -/
def findFilter (f : Filter) (filterPattern : List Char) : Option FilterItem :=
  f.filterItems.find? fun item => item.pattern == filterPattern

def addFilter (re : RegularExpressions) (f : Filter) (filterPattern : List Char)
    (minLevel maxLevel : UInt8)
    : Bool × Filter :=
  if (f.findFilter filterPattern).isSome then (false, f)
  else
    let item := FilterItem.init filterPattern f.caseSensitive minLevel maxLevel
    (item.valid re, { f with filterItems := f.filterItems ++ [item] })

def save (f : Filter) (indent : List Char) : List Char :=
  f.filterItems.flatMap fun item => item.save (indent ++ "    ".toList)

end Filter

-----------------------------------------------------------------------------------------
-- The types
-----------------------------------------------------------------------------------------

/-- The names of the types by mask, and the bits that are taken. -/
structure FilterTypes where
  allocated : Nat
  filters : OrderedMap Nat (List Char)
  maxType : UInt8
deriving DecidableEq

namespace FilterTypes

def empty : FilterTypes := ⟨0, .empty, 0⟩

/-- `1 << type`, in 32 bits. -/
def mask (type : UInt8) : Nat := 1 <<< (type.toNat % 32)

def validMask (types : FilterTypes) (mask : Nat) : Bool := types.allocated &&& mask != 0

/-- The first free type gets the name. -/
def registerType (types : FilterTypes) (name : List Char) : FilterTypes :=
  match (List.range 33).find? fun i => types.allocated &&& mask (.ofNat i) == 0 with
  | none => types
  | some i =>
      { allocated := types.allocated ||| mask (.ofNat i)
        filters := types.filters.insert (mask (.ofNat i)) name
        maxType := if UInt8.ofNat i > types.maxType then .ofNat i else types.maxType }

def name (types : FilterTypes) (mask : Nat) : List Char :=
  (types.filters.find? mask).getD ("Unknown:".toList ++ Nat.toDigits 10 mask)

def type (types : FilterTypes) (query : List Char) : UInt8 :=
  match (List.range (types.maxType.toNat + 1)).find? fun i =>
      types.name (mask (.ofNat i)) == query with
  | some i => .ofNat i
  | none => 255

/-- The labels of `FILTER_TYPE_TABLE`. -/
def table : List (List Char) :=
  ["Hunt".toList, "Caution".toList, "Danger".toList, "Locate".toList, "Alert".toList,
    "Filtered".toList, "Tracer".toList]

/-- The types that the constructor of `FilterMgr` registers. -/
def registered : FilterTypes := table.foldl registerType empty

end FilterTypes

-----------------------------------------------------------------------------------------
-- All the rules
-----------------------------------------------------------------------------------------

/-- The rules of every type, by its mask. No constructor sets `caseSensitive`. -/
structure Filters where
  types : FilterTypes
  caseSensitive : Bool
  filters : OrderedMap Nat Filter

namespace Filters

/-- No rules. -/
def new (types : FilterTypes) (caseSensitive : Bool) : Filters := ⟨types, caseSensitive, .empty⟩

def clear (f : Filters) : Filters := { f with filters := .empty }

def addFilter (re : RegularExpressions) (f : Filters) (type : UInt8)
    (filterPattern : List Char) (minLevel maxLevel : UInt8)
    : Bool × Filters :=
  let mask := FilterTypes.mask type
  if f.types.validMask mask then
    let filter := (f.filters.find? mask).getD ⟨f.caseSensitive, []⟩
    let (ok, filter) := filter.addFilter re filterPattern minLevel maxLevel
    (ok, { f with filters := f.filters.insert mask filter })
  else (false, f)

def filterMask (re : RegularExpressions) (f : Filters) (filterString : List Char)
    (level : UInt8)
    : Nat :=
  f.filters.entries.foldl
    (fun mask entry =>
      if entry.2.isFiltered re filterString level then mask ||| entry.1 else mask)
    0

/-- The text of the file that the rules are saved to. -/
def save (f : Filters) : List Char :=
  let indent := "    ".toList
  "<?xml version=\"1.0\" encoding=\"UTF-8\"?>\n".toList
    ++ ("<!DOCTYPE seqfilters SYSTEM \"seqfilters.dtd\">\n".toList
      ++ ("<seqfilters>\n".toList
        ++ (f.filters.entries.flatMap (fun entry =>
              indent ++ ("<section name=\"".toList ++ (f.types.name entry.1 ++ ("\">\n".toList
                ++ (entry.2.save indent ++ (indent ++ "</section>\n".toList))))))
          ++ "</seqfilters>\n".toList)))

end Filters

-----------------------------------------------------------------------------------------
-- The file
-----------------------------------------------------------------------------------------

/-- The state of the handler, and the rules that it adds to. -/
structure LoadXmlContentHandler where
  filters : Filters
  currentType : UInt8 := 255
  currentFilterPattern : List Char := []
  currentMinLevel : UInt8 := 0
  currentMaxLevel : UInt8 := 0
  inRegex : Bool := false

namespace LoadXmlContentHandler

/-- `QString::toUShort`: what is no such number is 0. -/
def toUShort (s : List Char) : UInt16 :=
  let trimmed := ((s.dropWhile Char.isWhitespace).reverse.dropWhile Char.isWhitespace).reverse
  let digits := if trimmed.head? = some '+' then trimmed.tail else trimmed
  if digits ≠ [] ∧ digits.all Char.isDigit ∧ Nat.ofDigitChars 10 digits 0 < 65536 then
    .ofNat (Nat.ofDigitChars 10 digits 0)
  else 0

/-- `QXmlStreamAttributes::value`, which is empty for an attribute that is not there. -/
def value (attr : List (List Char × List Char)) (name : List Char) : List Char :=
  ((attr.find? fun a => a.1 == name).map Prod.snd).getD []

def startDocument (h : LoadXmlContentHandler) : LoadXmlContentHandler where
  filters := h.filters

/-- Nothing where the handler stops the reading. -/
def startElement (h : LoadXmlContentHandler) (name : List Char)
    (attr : List (List Char × List Char))
    : Option LoadXmlContentHandler :=
  if name = "oldfilter".toList then
    some { h with currentFilterPattern := [], currentMinLevel := 0, currentMaxLevel := 0 }
  else if name = "regex".toList then some { h with inRegex := true }
  else if name = "level".toList then
    some { h with
      currentMinLevel :=
        if value attr "min".toList = [] then h.currentMinLevel
        else (toUShort (value attr "min".toList)).toUInt8
      currentMaxLevel :=
        if value attr "max".toList = [] then h.currentMaxLevel
        else (toUShort (value attr "max".toList)).toUInt8 }
  else if name = "section".toList then
    if value attr "name".toList = [] then none
    else some { h with currentType := h.filters.types.type (value attr "name".toList) }
  else some h

def characters (h : LoadXmlContentHandler) (ch : List Char) : LoadXmlContentHandler :=
  if h.inRegex then { h with currentFilterPattern := ch } else h

def endElement (re : RegularExpressions) (h : LoadXmlContentHandler) (name : List Char)
    : LoadXmlContentHandler :=
  let h := if name = "regex".toList then { h with inRegex := false } else h
  if name = "oldfilter".toList then
    if h.currentType ≤ h.filters.types.maxType then
      { h with
        filters := (h.filters.addFilter re h.currentType h.currentFilterPattern
          h.currentMinLevel h.currentMaxLevel).2 }
    else h
  else if name = "section".toList then { h with currentType := 255 }
  else h

/-- One token of the loop of `Filters::load`: nothing where the status becomes false. -/
def token (re : RegularExpressions) (h : LoadXmlContentHandler)
    : Xml.Token → Option LoadXmlContentHandler
  | .startDocument => some h.startDocument
  | .startElement name attributes => h.startElement name attributes
  | .endElement name => some (h.endElement re name)
  | .characters text => some (h.characters text)
  | .invalid => none
  | .endDocument | .dtd | .comment _ | .entityReference _ | .processingInstruction => some h

/-- The loop of `Filters::load`. -/
def tokens (re : RegularExpressions) (h : LoadXmlContentHandler)
    : List Xml.Token → Bool × LoadXmlContentHandler
  | [] => (true, h)
  | t :: rest =>
      match h.token re t with
      | some h => h.tokens re rest
      | none => (false, h)

end LoadXmlContentHandler

/-- `Filters::load` of the file with this text, of which there is none where the name is empty
or the file cannot be opened.
-/
def Filters.load (read : List Char → List Xml.Token) (re : RegularExpressions) (f : Filters)
    : Option (List Char) → Bool × Filters
  | none => (false, f.clear)
  | some text =>
      let (status, handler) := LoadXmlContentHandler.tokens re ⟨f.clear, 255, [], 0, 0, false⟩
        (read text)
      (status, handler.filters)

end Scry
