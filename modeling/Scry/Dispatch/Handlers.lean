import Scry.Dispatch.OpcodeTable
import Scry.PacketStream.Unrolling

/-! Registering handlers on a stream and firing them. A registration goes by the name of a
row and binds to one of its descriptors; a packet goes by the id of a row and fires what is
bound to each descriptor it matches.
-/

namespace Scry

-----------------------------------------------------------------------------------------
-- Registration
-----------------------------------------------------------------------------------------

/-- The address of a descriptor, which is what dispatchers are filed under. -/
structure PayloadRef where
  row : Nat
  index : Nat
  deriving DecidableEq

/-- The arguments of a call of `on`. -/
structure Registration (H : Type) where
  opcodeName : String
  payloadType : String
  szt : EQSizeCheckType
  handler : H
  deriving DecidableEq

/-- The part of `EQPacketStream` that handlers are bound to. `dispatchers` holds, under the
address of a descriptor, the handlers of its `EQPacketDispatch`.
-/
structure PacketDispatcher (H : Type) where
  opcodeDB : EQPacketOPCodeDB
  dir : UInt8
  muted : Bool
  dispatchers : PayloadRef → Option (List H)

/-- What a call of `dispatchPacket` does, in order: the signal every observer gets, the
handlers it activates, and the signal that says whether the packet was unknown.
-/
inductive DispatchEvent (H : Type)
  | decodedPacket (call : DispatchCall) (opcodeEntry : Option Nat)
  | activate (handler : H)
  | decodedPacketUnknown (call : DispatchCall) (opcodeEntry : Option Nat) (unknown : Bool)
  deriving DecidableEq

/-- A call of `dispatchPacket`: what it did, and whether it came to its end. -/
structure Dispatched (H : Type) where
  events : List (DispatchEvent H)
  returned : Bool
  deriving DecidableEq

/-- What walking the descriptors of a row did. -/
structure PayloadWalk (H : Type) where
  activated : List H
  found : Bool
  returned : Bool
  deriving DecidableEq

variable {H : Type}

/-- The descriptor answers a registration: direction, type name and size check agree. -/
def Registration.fits (r : Registration H) (dir : UInt8) (payload : EQPacketPayload) : Bool :=
  payload.dir &&& dir != 0 && payload.typeName == r.payloadType && payload.sizeCheckType == r.szt

/-- The handlers a call of `dispatchPacket` fired. -/
def Dispatched.fired (call : Dispatched H) : List H :=
  call.events.filterMap fun
    | .activate handler => some handler
    | _ => none

namespace PacketDispatcher

/-- The constructor: no dispatcher exists yet. -/
def fresh (opcodeDB : EQPacketOPCodeDB) (dir : UInt8) (muted : Bool) : PacketDispatcher H :=
  { opcodeDB, dir, muted, dispatchers := fun _ => none }

/-- The descriptor a registration binds to: the first that fits, in the row of that name. -/
def resolve (s : PacketDispatcher H) (r : Registration H) : Option PayloadRef :=
  match s.opcodeDB.findByName r.opcodeName with
  | none => none
  | some row =>
      match (s.opcodeDB.payloadsAt row).findIdx? (r.fits s.dir) with
      | none => none
      | some index => some { row, index }

/-- `dispatchFor`: the dispatcher of the descriptor, created if there is none. -/
def dispatchFor (s : PacketDispatcher H) (r : Registration H)
    : Option PayloadRef × PacketDispatcher H :=
  match s.resolve r with
  | none => (none, s)
  | some ref =>
      match s.dispatchers ref with
      | some _ => (some ref, s)
      | none =>
          (some ref, { s with dispatchers := Function.update s.dispatchers ref (some []) })

/-- `on`, with `EQPacketDispatch::add` at its end. -/
def on (s : PacketDispatcher H) (r : Registration H) : Bool × PacketDispatcher H :=
  match s.dispatchFor r with
  | (none, t) => (false, t)
  | (some ref, t) =>
      let handlers := (t.dispatchers ref).getD [] ++ [r.handler]
      (true, { t with dispatchers := Function.update t.dispatchers ref (some handlers) })

/-- The stream after a sequence of registrations. -/
def register (s : PacketDispatcher H) (registrations : List (Registration H))
    : PacketDispatcher H :=
  registrations.foldl (fun t r => (t.on r).2) s

-----------------------------------------------------------------------------------------
-- Dispatch
-----------------------------------------------------------------------------------------

/-- `EQPacketDispatch::activate` on the dispatcher of a descriptor, if it has one. -/
def activate (s : PacketDispatcher H) (ref : PayloadRef) : List H :=
  (s.dispatchers ref).getD []

/-- The loop of `dispatchPacket` over the descriptors of a row, from a position on. -/
def walk (s : PacketDispatcher H) (row : Nat) (len : Nat)
    : Nat → List EQPacketPayload → PayloadWalk H
  | _, [] => { activated := [], found := false, returned := true }
  | index, payload :: rest =>
      match payload.matchPacket len s.dir with
      | none => { activated := [], found := false, returned := false }
      | some false => s.walk row len (index + 1) rest
      | some true =>
          let later := s.walk row len (index + 1) rest
          { activated := s.activate { row, index } ++ later.activated
            found := true
            returned := later.returned }

/-- `dispatchPacket`. -/
def dispatchPacket (s : PacketDispatcher H) (call : DispatchCall) (opcodeEntry : Option Nat)
    : Dispatched H :=
  let announced := DispatchEvent.decodedPacket call opcodeEntry
  if s.muted then { events := [announced], returned := true }
  else
    match opcodeEntry with
    | none =>
        { events := [announced, .decodedPacketUnknown call none true], returned := true }
    | some row =>
        let walked := s.walk row call.len 0 (s.opcodeDB.payloadsAt row)
        let activated := walked.activated.map DispatchEvent.activate
        if walked.returned then
          let judged := .decodedPacketUnknown call opcodeEntry (!walked.found)
          { events := announced :: activated ++ [judged], returned := true }
        else { events := announced :: activated, returned := false }

/-- A packet of the stream: every call of `dispatchPacket` looks its row up by the opcode. -/
def dispatchCall (s : PacketDispatcher H) (call : DispatchCall) : Dispatched H :=
  s.dispatchPacket call (s.opcodeDB.find call.opcode)

end PacketDispatcher

end Scry
