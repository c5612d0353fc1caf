import Mathlib.Data.List.DropRight
import Mathlib.Logic.Function.Basic

/-! The opcode table: its rows with their payload descriptors, the two hashes that index
them, and the loader that fills it from a parsed document.
-/

namespace Scry

-----------------------------------------------------------------------------------------
-- Payload descriptors
-----------------------------------------------------------------------------------------

/-- `EQSizeCheckType`. -/
inductive EQSizeCheckType
  | none
  | match
  | modulus
  deriving DecidableEq

/-- `EQPacketTypeDB`: the size of each known type. -/
abbrev EQPacketTypeDB := String → Option Nat

def EQPacketTypeDB.size (db : EQPacketTypeDB) (typeName : String) : Nat :=
  (db typeName).getD 0

def EQPacketTypeDB.valid (db : EQPacketTypeDB) (typeName : String) : Bool :=
  db.size typeName != 0

/-- `EQPacketPayload`. The default value is the constructor's. -/
structure EQPacketPayload where
  typeName : String := ""
  typeSize : Nat := 0
  sizeCheckType : EQSizeCheckType := .none
  dir : UInt8 := 0
  deriving DecidableEq

namespace EQPacketPayload

/-- `EQPacketPayload::match`. The remainder by a size of zero has no value; the direction is
tested first, so it is only taken where the direction fits.
-/
def matchPacket (payload : EQPacketPayload) (size : Nat) (dir : UInt8) : Option Bool :=
  let facing := payload.dir &&& dir != 0
  match payload.sizeCheckType with
  | .none => some facing
  | .match => some (facing && payload.typeSize == size)
  | .modulus =>
      if facing then
        if payload.typeSize = 0 then none else some (size % payload.typeSize == 0)
      else some false

/-- `setType`: an unknown type leaves the descriptor as it is. -/
def setType (payload : EQPacketPayload) (db : EQPacketTypeDB) (typeName : String)
    : EQPacketPayload :=
  if db.valid typeName then { payload with typeName, typeSize := db.size typeName }
  else payload

end EQPacketPayload

-----------------------------------------------------------------------------------------
-- The table
-----------------------------------------------------------------------------------------

/-- `EQPacketOPCode`: a row and the descriptors appended to it. -/
structure EQPacketOPCode where
  opcode : UInt16
  name : String
  payloads : List EQPacketPayload
  deriving DecidableEq

/-- `EQPacketOPCodeDB`. A row lives at its position in `rows`, which stands for the pointer
both hashes hold.
-/
structure EQPacketOPCodeDB where
  rows : List EQPacketOPCode
  opcodes : UInt16 → Option Nat
  opcodesByName : String → Option Nat

namespace EQPacketOPCodeDB

def empty : EQPacketOPCodeDB :=
  { rows := [], opcodes := fun _ => none, opcodesByName := fun _ => none }

/-- `add`, and the descriptors `load` appends through the pointer it returns. Inserting into
a hash replaces what the key held.
-/
def add (db : EQPacketOPCodeDB) (row : EQPacketOPCode) : EQPacketOPCodeDB :=
  { rows := db.rows ++ [row]
    opcodes := Function.update db.opcodes row.opcode (some db.rows.length)
    opcodesByName := Function.update db.opcodesByName row.name (some db.rows.length) }

/-- `find` by id, which is how a packet finds its row. -/
def find (db : EQPacketOPCodeDB) (opcode : UInt16) : Option Nat := db.opcodes opcode

/-- `find` by name, which is how a registration finds its row. -/
def findByName (db : EQPacketOPCodeDB) (name : String) : Option Nat := db.opcodesByName name

/-- The descriptors of the row at a position. -/
def payloadsAt (db : EQPacketOPCodeDB) (row : Nat) : List EQPacketPayload :=
  match db.rows[row]? with
  | none => []
  | some entry => entry.payloads

end EQPacketOPCodeDB

-----------------------------------------------------------------------------------------
-- Loading
-----------------------------------------------------------------------------------------

/-- A payload table of the document: its fields where they are strings. -/
structure PayloadNode where
  dir : Option String
  typename : Option String
  sizechecktype : Option String

/-- An opcode table of the document. Its payloads are absent where they are no array; an
item of the array is `none` where it is no table.
-/
structure OpcodeNode where
  id : Option String
  name : Option String
  payloads : Option (List (Option PayloadNode))

/-- What the TOML parser makes of the file: an error, or the array of the section, if the
section is there. An item of the array is `none` where it is no table.
-/
inductive TomlDocument
  | malformed
  | parsed (array : Option (List (Option OpcodeNode)))

def hexDigit (c : Char) : Option Nat :=
  if '0' ≤ c ∧ c ≤ '9' then some (c.toNat - '0'.toNat)
  else if 'a' ≤ c ∧ c ≤ 'f' then some (c.toNat - 'a'.toNat + 10)
  else if 'A' ≤ c ∧ c ≤ 'F' then some (c.toNat - 'A'.toNat + 10)
  else none

/-- The value of a nonempty string of hexadecimal digits. -/
def hexValue : List Char → Option Nat
  | [] => none
  | digits => digits.foldlM (fun value c => (hexDigit c).map (16 * value + ·)) 0

/-- `QString::toUShort` in base 16: blanks around the number, a plus sign and a `0x` before
its digits are allowed, and the value has to fit.
-/
def toUShort (text : String) : Option UInt16 :=
  let unspaced := (text.toList.dropWhile Char.isWhitespace).rdropWhile Char.isWhitespace
  let unsigned :=
    match unspaced with
    | '+' :: rest => rest
    | chars => chars
  let digits :=
    match unsigned with
    | '0' :: 'x' :: rest => rest
    | '0' :: 'X' :: rest => rest
    | chars => chars
  (hexValue digits).bind fun value => if value < 65536 then some (.ofNat value) else none

def setDir (payload : EQPacketPayload) : Option String → EQPacketPayload
  | some "both" => { payload with dir := 0x03 }
  | some "server" => { payload with dir := 0x02 }
  | some "client" => { payload with dir := 0x01 }
  | _ => payload

/-- `c_str`, as its readers see it: the text up to its first null character. -/
def cString (text : String) : String := .ofList (text.toList.takeWhile (· ≠ '\x00'))

def setTypeName (typeDB : EQPacketTypeDB) (payload : EQPacketPayload)
    : Option String → EQPacketPayload
  | none => payload
  | some typeName =>
      if typeName = "" then payload else payload.setType typeDB (cString typeName)

def setSizeCheckType (payload : EQPacketPayload) : Option String → EQPacketPayload
  | some "" => { payload with sizeCheckType := .none }
  | some "none" => { payload with sizeCheckType := .none }
  | some "match" => { payload with sizeCheckType := .match }
  | some "modulus" => { payload with sizeCheckType := .modulus }
  | _ => payload

/-- The descriptor `load` appends for a payload table. -/
def PayloadNode.payload (typeDB : EQPacketTypeDB) (node : PayloadNode) : EQPacketPayload :=
  setSizeCheckType (setTypeName typeDB (setDir {} node.dir) node.typename) node.sizechecktype

/-- The row `load` adds for an opcode table, unless it refuses the document over it. -/
def OpcodeNode.row (typeDB : EQPacketTypeDB) (node : OpcodeNode) : Option EQPacketOPCode :=
  match node.id, node.name with
  | some id, some name =>
      (toUShort id).map fun opcode =>
        { opcode, name
          payloads := ((node.payloads.getD []).filterMap fun item => item).map
            (·.payload typeDB) }
  | _, _ => none

namespace EQPacketOPCodeDB

/-- The loop of `load`; what was added before a refusal stays. -/
def loadRows (typeDB : EQPacketTypeDB) (db : EQPacketOPCodeDB)
    : List (Option OpcodeNode) → Bool × EQPacketOPCodeDB
  | [] => (true, db)
  | none :: rest => db.loadRows typeDB rest
  | some node :: rest =>
      match node.row typeDB with
      | none => (false, db)
      | some row => (db.add row).loadRows typeDB rest

/-- `EQPacketOPCodeDB::load`. An absent section is an empty one. -/
def load (typeDB : EQPacketTypeDB) (db : EQPacketOPCodeDB)
    : TomlDocument → Bool × EQPacketOPCodeDB
  | .malformed => (false, db)
  | .parsed none => (true, db)
  | .parsed (some array) => db.loadRows typeDB array

end EQPacketOPCodeDB

end Scry
