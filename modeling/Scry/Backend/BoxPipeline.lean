import Scry.Dispatch.Exactness
import Scry.PacketStream.Stream

/-! The wiring of a box: what `wireBoxPipeline` registers on the four streams of a box, and what
packets of theirs fire then.
-/

namespace Scry

/-- `EQStreamPairs`. -/
inductive EQStreamPairs
  | SP_World
  | SP_Zone
  deriving DecidableEq

namespace EQStreamID

/-- The pair a stream is of, whose opcode table it has. -/
def pair : EQStreamID → EQStreamPairs
  | client2world | world2client => .SP_World
  | client2zone | zone2client => .SP_Zone

def dir : EQStreamID → UInt8
  | client2world | client2zone => DIR_Client
  | world2client | zone2client => DIR_Server

end EQStreamID

/-- The arguments of a call of `wire`. -/
structure WireRow (H : Type) where
  op : String
  sp : EQStreamPairs
  dir : UInt8
  payload : String
  szt : EQSizeCheckType
  handler : H

/-- The managers that the whole daemon shares and that only one box is to feed. -/
inductive GlobalSink
  | onItemPacket
  | timeOfDay
  | zoneServerInfo
  deriving DecidableEq

/-- A handler of a box's wiring: a global one, or one of the box's managers. -/
inductive BoxHandler (P : Type)
  | sink (s : GlobalSink)
  | manager (p : P)
  deriving DecidableEq

/-- The wiring of a backend, whose global rows stand between others. -/
structure BoxPipeline (P : Type) where
  before : List (WireRow P)
  sinks : List (WireRow GlobalSink)
  after : List (WireRow P)
  sinks_nodup : (sinks.map WireRow.handler).Nodup

/-- The streams of a box. -/
abbrev BoxStreams (H : Type) := EQStreamID → PacketDispatcher H

/-- The tables of the two pairs of streams. -/
abbrev OpcodeDBs := EQStreamPairs → EQPacketOPCodeDB

namespace WireRow

variable {H K : Type}

def map (f : H → K) (row : WireRow H) : WireRow K := { row with handler := f row.handler }

/-- A row is for the streams of its pair and its directions. -/
def selects (row : WireRow H) (id : EQStreamID) : Bool :=
  row.sp = id.pair && row.dir &&& id.dir != 0

def registration (row : WireRow H) : Registration H :=
  { opcodeName := row.op, payloadType := row.payload, szt := row.szt, handler := row.handler }

/-- The registrations that rows make on a stream. -/
def registrations (rows : List (WireRow H)) (id : EQStreamID) : List (Registration H) :=
  (rows.filter (·.selects id)).map registration

end WireRow

/-- `wire`: the row is registered on the streams it is for. -/
def BoxStreams.wire {H : Type} (s : BoxStreams H) (row : WireRow H) : BoxStreams H := fun id =>
  if row.selects id then ((s id).on row.registration).2 else s id

/-- New streams. -/
def BoxStreams.fresh {H : Type} (db : OpcodeDBs) : BoxStreams H := fun id =>
  .fresh (db id.pair) id.dir false

namespace BoxPipeline

variable {P : Type}

def rows (p : BoxPipeline P) (wireGlobalSinks : Bool) : List (WireRow (BoxHandler P)) :=
  p.before.map (.map .manager)
    ++ (if wireGlobalSinks then p.sinks.map (.map .sink) else [])
    ++ p.after.map (.map .manager)

/-- `wireBoxPipeline`, without the signal it connects. -/
def wireBoxPipeline (p : BoxPipeline P) (wireGlobalSinks : Bool)
    (streams : BoxStreams (BoxHandler P))
    : BoxStreams (BoxHandler P) :=
  (p.rows wireGlobalSinks).foldl .wire streams

end BoxPipeline

/-- The global handlers among those a packet fires. -/
def sinksOf {P : Type} (fired : List (BoxHandler P)) : List GlobalSink :=
  fired.filterMap fun
    | .sink s => some s
    | .manager _ => none

/-- The managers' handlers among those a packet fires. -/
def managersOf {P : Type} (fired : List (BoxHandler P)) : List P :=
  fired.filterMap fun
    | .sink _ => none
    | .manager p => some p

-----------------------------------------------------------------------------------------
-- What a wired stream fires
-----------------------------------------------------------------------------------------

namespace BoxPipeline

variable {P H : Type}

/-- Wiring row after row is registering the rows that are for a stream on it, by induction on
the rows.
-/
theorem foldl_wire (rows : List (WireRow H)) (streams : BoxStreams H) (id : EQStreamID)
    : rows.foldl .wire streams id = (streams id).register (WireRow.registrations rows id) := by
  induction rows generalizing streams with
  | nil => rfl
  | cons row rest ih =>
      rw [List.foldl_cons, ih]
      cases selected : row.selects id with
      | false => simp [BoxStreams.wire, WireRow.registrations, selected]
      | true =>
          simp [BoxStreams.wire, WireRow.registrations, selected, PacketDispatcher.register]

/-- The handlers that rows mean a packet of a stream to fire. -/
def expected (rows : List (WireRow H)) (db : OpcodeDBs) (id : EQStreamID) (call : DispatchCall)
    : List H :=
  expectedHandlers (db id.pair) id.dir false (WireRow.registrations rows id) call

/-- A packet's dispatch on a stream comes to its end: no descriptor divides by zero. -/
def Ends (db : OpcodeDBs) (id : EQStreamID) (call : DispatchCall) : Prop :=
  ∀ row, (db id.pair).find call.opcode = some row →
    ∀ payload ∈ (db id.pair).payloadsAt row, ¬ payload.DividesByZero id.dir

theorem fired_wireBoxPipeline (p : BoxPipeline P) (wireGlobalSinks : Bool) {db : OpcodeDBs}
    {id : EQStreamID} {call : DispatchCall} (ends : Ends db id call)
    : ((p.wireBoxPipeline wireGlobalSinks (.fresh db) id).dispatchCall call).fired
      = expected (p.rows wireGlobalSinks) db id call := by
  have wired
      : p.wireBoxPipeline wireGlobalSinks (.fresh db) id
        = registered (db id.pair) id.dir false
            (WireRow.registrations (p.rows wireGlobalSinks) id) :=
    foldl_wire _ _ id
  rw [wired]
  exact ((dispatchesExactly_iff _ _ _ _ _).mpr (.inr ends)).fired

/-- The part of the handlers that other rows mean descriptor by descriptor, they mean in all. -/
theorem filterMap_expected {K : Type} {part : H → Option K} {rows : List (WireRow H)}
    {others : List (WireRow K)} {db : OpcodeDBs} {id : EQStreamID}
    (one
      : ∀ ref,
          (handlersFor (db id.pair) id.dir (WireRow.registrations rows id) ref).filterMap part
            = handlersFor (db id.pair) id.dir (WireRow.registrations others id) ref)
    (call : DispatchCall)
    : (expected rows db id call).filterMap part = expected others db id call := by
  simp only [expected, expectedHandlers, Bool.false_eq_true, if_false]
  cases (db id.pair).find call.opcode with
  | none => rfl
  | some row =>
      simp only [List.filterMap_flatMap]
      refine List.flatMap_congr fun item _ => ?_
      split
      · exact one _
      · rfl

theorem handlersFor_append (db : EQPacketOPCodeDB) (dir : UInt8)
    (first second : List (WireRow H)) (id : EQStreamID) (ref : PayloadRef)
    : handlersFor db dir (WireRow.registrations (first ++ second) id) ref
      = handlersFor db dir (WireRow.registrations first id) ref
        ++ handlersFor db dir (WireRow.registrations second id) ref := by
  simp [handlersFor, WireRow.registrations]

/-- What a row is registered for has nothing to do with its handler. -/
theorem handlersFor_map {K : Type} (f : H → K) (db : EQPacketOPCodeDB) (dir : UInt8)
    (rows : List (WireRow H)) (id : EQStreamID) (ref : PayloadRef)
    : handlersFor db dir (WireRow.registrations (rows.map (.map f)) id) ref
      = (handlersFor db dir (WireRow.registrations rows id) ref).map f := by
  induction rows with
  | nil => rfl
  | cons row rest ih =>
      have selected : (row.map f).selects id = row.selects id := rfl
      have isFor
          : (row.map f).registration.IsFor db dir ref ↔ row.registration.IsFor db dir ref :=
        Iff.rfl
      simp only [handlersFor, WireRow.registrations] at ih
      simp only [handlersFor, WireRow.registrations, List.map_cons, List.filter_cons, selected]
      by_cases here : row.selects id
      · by_cases fits : row.registration.IsFor db dir ref
        · simp only [here, if_true, List.map_cons, List.filter_cons, isFor, fits, decide_true, ih]
          rfl
        · simp only [here, if_true, List.map_cons, List.filter_cons, isFor, fits, decide_false,
            Bool.false_eq_true, if_false, ih]
      · simp only [here, Bool.false_eq_true, if_false, ih]

/-- The managers' rows. -/
def perBox (p : BoxPipeline P) : List (WireRow P) := p.before ++ p.after

/-- The global handlers that a packet fires on a stream that is wired with them are those that
the global rows mean it to fire; on a stream wired without them, none.
-/
theorem sinksOf_expected (p : BoxPipeline P) (wireGlobalSinks : Bool) (db : OpcodeDBs)
    (id : EQStreamID) (call : DispatchCall)
    : sinksOf (expected (p.rows wireGlobalSinks) db id call)
      = if wireGlobalSinks then expected p.sinks db id call else [] := by
  have silent (handlers : List P)
      : sinksOf (handlers.map BoxHandler.manager) = [] := by
    simp [sinksOf, List.filterMap_map]
  cases wireGlobalSinks with
  | true =>
      refine filterMap_expected (fun ref => ?_) call
      simp only [rows, if_true, handlersFor_append, handlersFor_map, List.filterMap_append]
      change sinksOf _ ++ sinksOf _ ++ sinksOf _ = _
      rw [silent, silent]
      simp [sinksOf, List.filterMap_map]
  | false =>
      have none : expected ([] : List (WireRow GlobalSink)) db id call = [] := by
        simp only [expected, expectedHandlers, Bool.false_eq_true, if_false]
        split
        · rfl
        · simp [handlersFor, WireRow.registrations]
      refine (filterMap_expected (fun ref => ?_) call).trans none
      simp only [rows, Bool.false_eq_true, if_false, handlersFor_append, handlersFor_map,
        List.filterMap_append]
      change sinksOf _ ++ sinksOf _ ++ sinksOf _ = _
      rw [silent, silent]
      rfl

/-- The managers' handlers that a packet fires are those that their rows mean it to fire. -/
theorem managersOf_expected (p : BoxPipeline P) (wireGlobalSinks : Bool) (db : OpcodeDBs)
    (id : EQStreamID) (call : DispatchCall)
    : managersOf (expected (p.rows wireGlobalSinks) db id call)
      = expected p.perBox db id call := by
  have heard (handlers : List P)
      : managersOf (handlers.map BoxHandler.manager) = handlers := by
    simp [managersOf, List.filterMap_map]
  have silent (handlers : List GlobalSink)
      : managersOf (handlers.map (BoxHandler.sink (P := P))) = [] := by
    simp [managersOf, List.filterMap_map]
  refine filterMap_expected (fun ref => ?_) call
  simp only [rows, perBox, handlersFor_append, handlersFor_map, List.filterMap_append]
  change managersOf _ ++ managersOf _ ++ managersOf _ = _
  rw [heard, heard]
  cases wireGlobalSinks with
  | true => rw [if_pos rfl, handlersFor_map, silent, List.append_nil]
  | false =>
      change _ ++ managersOf [] ++ _ = _
      rw [managersOf, List.filterMap_nil, List.append_nil]

/-- A registration is for one descriptor. -/
theorem isFor_unique {r : Registration H} {db : EQPacketOPCodeDB} {dir : UInt8}
    {first second : PayloadRef} (one : r.IsFor db dir first) (other : r.IsFor db dir second)
    : first = second := by
  obtain ⟨row, ⟨payload, at_first, fits⟩, least⟩ := one
  obtain ⟨row', ⟨payload', at_second, fits'⟩, least'⟩ := other
  have rows : first.row = second.row := Option.some.inj (row.symm.trans row')
  rcases Nat.lt_trichotomy first.index second.index with less | same | more
  · exact absurd fits (least' _ less payload (rows ▸ at_first))
  · cases first
    cases second
    exact congrArg₂ PayloadRef.mk rows same
  · exact absurd fits' (least _ more payload' (rows ▸ at_second))

/-- Rows with different handlers mean a packet to fire none of them twice. -/
theorem nodup_expected {rows : List (WireRow H)} (nodup : (rows.map WireRow.handler).Nodup)
    (db : OpcodeDBs) (id : EQStreamID) (call : DispatchCall)
    : (expected rows db id call).Nodup := by
  have handlers : ((WireRow.registrations rows id).map Registration.handler).Nodup := by
    rw [WireRow.registrations, List.map_map]
    exact (List.filter_sublist.map WireRow.handler).nodup nodup
  simp only [expected, expectedHandlers, Bool.false_eq_true, if_false]
  cases (db id.pair).find call.opcode with
  | none => exact List.nodup_nil
  | some row =>
      rw [List.nodup_flatMap]
      refine ⟨fun item _ => ?_, ?_⟩
      · split
        · exact (List.filter_sublist.map Registration.handler).nodup handlers
        · exact List.nodup_nil
      · have indices
            : (((db id.pair).payloadsAt row).zipIdx.map Prod.snd).Nodup := by
          rw [List.zipIdx_map_snd]
          exact List.nodup_range'
        refine (List.pairwise_map.mp indices).imp fun {first second} other h one two => ?_
        dsimp only at one two
        split at one
        · split at two
          · obtain ⟨r, registered, rfl⟩ := List.mem_map.mp one
            obtain ⟨r', registered', same⟩ := List.mem_map.mp two
            rw [List.mem_filter, decide_eq_true_eq] at registered registered'
            obtain rfl := List.inj_on_of_nodup_map handlers registered'.1 registered.1 same
            exact other (congrArg PayloadRef.index (isFor_unique registered.2 registered'.2))
          · cases two
        · cases one

end BoxPipeline

end Scry
