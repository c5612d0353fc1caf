import Scry.Dispatch.Exactness

/-! What the loader makes of a payload table decides its size check for every packet: an
unknown type leaves a size of zero behind, which a check for equality can live with and a
check for divisibility cannot.
-/

namespace Scry

/-- The payload tables of a row, in file order. -/
def OpcodeNode.payloadNodes (node : OpcodeNode) : List PayloadNode :=
  (node.payloads.getD []).filterMap fun item => item

/-- The payload tables of the document, in file order. -/
def TomlDocument.payloadNodes : TomlDocument → List PayloadNode
  | .malformed => []
  | .parsed none => []
  | .parsed (some array) => (array.filterMap fun item => item).flatMap (·.payloadNodes)

namespace PayloadNode

/-- The payload table gives a type that the type DB has a size for. -/
def KnowsType (typeDB : EQPacketTypeDB) (node : PayloadNode) : Prop :=
  ∃ typeName, node.typename = some typeName ∧ typeName ≠ ""
    ∧ typeDB.valid (cString typeName) = true

/-- The payload table gives a direction. -/
def Faces (node : PayloadNode) : Prop :=
  node.dir = some "both" ∨ node.dir = some "server" ∨ node.dir = some "client"

end PayloadNode

/-- The size checks of a loaded table are total: no descriptor of it divides by zero, and one
whose type is unknown accepts no packet of a positive length that it checks.
-/
structure SizeChecksTotal (typeDB : EQPacketTypeDB) (document : TomlDocument) : Prop where
  divides : ∀ row ∈ (EQPacketOPCodeDB.empty.load typeDB document).2.rows,
    ∀ payload ∈ row.payloads, ∀ (len : Nat) (dir : UInt8), payload.matchPacket len dir ≠ none
  unknown : ∀ node ∈ document.payloadNodes, ¬ node.KnowsType typeDB →
    node.sizechecktype = some "match" ∨ node.sizechecktype = some "modulus" →
      ∀ (len : Nat) (dir : UInt8), 0 < len →
        (node.payload typeDB).matchPacket len dir ≠ some true

-----------------------------------------------------------------------------------------
-- The descriptor of a payload table
-----------------------------------------------------------------------------------------

namespace PayloadNode

variable {typeDB : EQPacketTypeDB} {node : PayloadNode}

theorem setSizeCheckType_typeSize (payload : EQPacketPayload) (text : Option String)
    : (setSizeCheckType payload text).typeSize = payload.typeSize
      ∧ (setSizeCheckType payload text).dir = payload.dir := by
  unfold setSizeCheckType
  split <;> exact ⟨rfl, rfl⟩

theorem setTypeName_dir (payload : EQPacketPayload) (text : Option String)
    : (setTypeName typeDB payload text).dir = payload.dir
      ∧ (setTypeName typeDB payload text).sizeCheckType = payload.sizeCheckType := by
  unfold setTypeName EQPacketPayload.setType
  split
  · exact ⟨rfl, rfl⟩
  · split
    · exact ⟨rfl, rfl⟩
    · split <;> exact ⟨rfl, rfl⟩

theorem setDir_typeSize (payload : EQPacketPayload) (text : Option String)
    : (setDir payload text).typeSize = payload.typeSize
      ∧ (setDir payload text).sizeCheckType = payload.sizeCheckType := by
  unfold setDir
  split <;> exact ⟨rfl, rfl⟩

/-- The direction is empty unless the payload table gives one. -/
theorem payload_dir_ne_zero : (node.payload typeDB).dir ≠ 0 ↔ node.Faces := by
  have dir : (node.payload typeDB).dir = (setDir {} node.dir).dir :=
    (setSizeCheckType_typeSize _ _).2.trans (setTypeName_dir _ _).1
  rw [dir]
  unfold setDir Faces
  split <;> simp_all

/-- The check is for divisibility where the payload table says so. -/
theorem payload_modulus
    : (node.payload typeDB).sizeCheckType = .modulus
      ↔ node.sizechecktype = some "modulus" := by
  have before : (setTypeName typeDB (setDir {} node.dir) node.typename).sizeCheckType = .none :=
    (setTypeName_dir _ _).2.trans (setDir_typeSize _ _).2
  unfold payload setSizeCheckType
  split <;> simp_all

/-- The size of the type is zero unless the type DB knows it. -/
theorem payload_typeSize_eq_zero
    : (node.payload typeDB).typeSize = 0 ↔ ¬ node.KnowsType typeDB := by
  have size : (node.payload typeDB).typeSize
      = (setTypeName typeDB (setDir {} node.dir) node.typename).typeSize :=
    (setSizeCheckType_typeSize _ _).1
  have before : (setDir {} node.dir).typeSize = 0 := (setDir_typeSize _ _).1
  rw [size]
  unfold setTypeName KnowsType
  cases named : node.typename with
  | none => simp [before]
  | some typeName =>
      by_cases blank : typeName = ""
      · simp [blank, before]
      · cases known : typeDB.valid (cString typeName) with
        | false => simp [blank, EQPacketPayload.setType, known, before]
        | true =>
            have sized : typeDB.size (cString typeName) ≠ 0 := by
              simpa [EQPacketTypeDB.valid] using known
            simp [blank, EQPacketPayload.setType, known, sized]

/-- Some packet makes the descriptor divide by zero exactly where the payload table asks for
a divisibility check against a type the type DB does not know.
-/
theorem payload_divides
    : (∃ (len : Nat) (dir : UInt8), (node.payload typeDB).matchPacket len dir = none)
      ↔ node.sizechecktype = some "modulus" ∧ node.Faces ∧ ¬ node.KnowsType typeDB := by
  simp only [EQPacketPayload.matchPacket_eq_none_iff, EQPacketPayload.DividesByZero,
    payload_modulus, payload_typeSize_eq_zero]
  constructor
  · rintro ⟨_, dir, facing, modulus, unknown⟩
    have given : (node.payload typeDB).dir ≠ 0 := by
      intro zero
      exact facing (by rw [zero, UInt8.zero_and])
    exact ⟨modulus, payload_dir_ne_zero.mp given, unknown⟩
  · rintro ⟨modulus, faces, unknown⟩
    refine ⟨0, (node.payload typeDB).dir, ?_, modulus, unknown⟩
    rw [UInt8.and_self]
    exact payload_dir_ne_zero.mpr faces

/-- A descriptor of an unknown type accepts no packet of a positive length that it checks:
the length is not its size, and there is no remainder by its size.
-/
theorem payload_unknown (unknown : ¬ node.KnowsType typeDB)
    (checked : node.sizechecktype = some "match" ∨ node.sizechecktype = some "modulus")
    {len : Nat} (positive : 0 < len) (dir : UInt8)
    : (node.payload typeDB).matchPacket len dir ≠ some true := by
  have zero := payload_typeSize_eq_zero.mpr unknown
  intro accepted
  obtain ⟨facing, exact, divides⟩ := (EQPacketPayload.matchPacket_eq_some accepted).mp rfl
  rcases checked with equal | modulus
  · have check : (node.payload typeDB).sizeCheckType = .match := by
      simp [payload, setSizeCheckType, equal]
    have := exact check
    omega
  · have divided := divides (payload_modulus.mpr modulus)
    rw [zero, Nat.zero_dvd] at divided
    omega

end PayloadNode

-----------------------------------------------------------------------------------------
-- The descriptors of a table
-----------------------------------------------------------------------------------------

namespace EQPacketOPCodeDB

variable {typeDB : EQPacketTypeDB}

/-- A row holds the descriptors of its payload tables. -/
theorem row_payloads {node : OpcodeNode} {row : EQPacketOPCode}
    (taken : node.row typeDB = some row)
    : row.payloads = node.payloadNodes.map (·.payload typeDB) := by
  unfold OpcodeNode.row at taken
  split at taken
  · obtain ⟨opcode, _, rfl⟩ := Option.map_eq_some_iff.mp taken
    rfl
  · contradiction

/-- An accepted array adds the descriptors of its payload tables, one for one. -/
theorem loadRows_payloads {array : List (Option OpcodeNode)} {db : EQPacketOPCodeDB}
    (accepted : (db.loadRows typeDB array).1 = true)
    : (db.loadRows typeDB array).2.rows.flatMap (·.payloads)
      = db.rows.flatMap (·.payloads)
        ++ ((array.filterMap fun item => item).flatMap (·.payloadNodes)).map
          (·.payload typeDB) := by
  induction array generalizing db with
  | nil => simp [loadRows]
  | cons item rest ih =>
      cases item with
      | none => exact ih accepted
      | some node =>
          cases taken : node.row typeDB with
          | none => simp [loadRows, taken] at accepted
          | some row =>
              simp only [loadRows, taken] at accepted ⊢
              rw [ih accepted]
              simp [add, row_payloads taken]

/-- The descriptors of an accepted document are those of its payload tables. -/
theorem load_payloads {document : TomlDocument}
    (accepted : (empty.load typeDB document).1 = true)
    : (empty.load typeDB document).2.rows.flatMap (·.payloads)
      = document.payloadNodes.map (·.payload typeDB) := by
  cases document with
  | malformed => simp [load] at accepted
  | parsed array =>
      cases array with
      | none => rfl
      | some array =>
          simpa [load, empty, TomlDocument.payloadNodes] using loadRows_payloads accepted

/-- The size checks of an accepted table are total exactly where every payload table that
faces some direction and asks for a divisibility check gives a type the type DB knows.
-/
theorem sizeChecks_total (typeDB : EQPacketTypeDB) (document : TomlDocument)
    (accepted : (empty.load typeDB document).1 = true)
    : SizeChecksTotal typeDB document
      ↔ ∀ node ∈ document.payloadNodes,
          node.sizechecktype = some "modulus" → node.Faces → node.KnowsType typeDB := by
  have descriptors := load_payloads accepted
  constructor
  · rintro ⟨divides, _⟩ node inside modulus faces
    by_contra unknown
    obtain ⟨len, dir, none⟩ :=
      PayloadNode.payload_divides.mpr ⟨modulus, faces, unknown⟩
    have held : node.payload typeDB
        ∈ (empty.load typeDB document).2.rows.flatMap (·.payloads) := by
      rw [descriptors]
      exact List.mem_map_of_mem inside
    obtain ⟨row, stored, member⟩ := List.mem_flatMap.mp held
    exact divides row stored _ member len dir none
  · intro known
    refine ⟨?_, fun node _ unknown checked _ dir positive =>
      PayloadNode.payload_unknown unknown checked positive dir⟩
    intro row stored payload member len dir none
    have held : payload ∈ document.payloadNodes.map (·.payload typeDB) := by
      rw [← descriptors]
      exact List.mem_flatMap.mpr ⟨row, stored, member⟩
    obtain ⟨node, inside, rfl⟩ := List.mem_map.mp held
    obtain ⟨modulus, faces, unknown⟩ := PayloadNode.payload_divides.mp ⟨len, dir, none⟩
    exact unknown (known node inside modulus faces)

/-- A table whose only descriptor checks divisibility by the size of an unknown type. -/
def unknownModulus : TomlDocument :=
  .parsed (some [some
    { id := some "1234", name := some "OP_Unknown"
      payloads := some [some
        { dir := some "server", typename := some "goneStruct"
          sizechecktype := some "modulus" }] }])

/-- The loader accepts it, and every packet from the server divides by zero. -/
theorem not_sizeChecks_total
    : (empty.load (fun _ => none) unknownModulus).1 = true
      ∧ ¬ SizeChecksTotal (fun _ => none) unknownModulus := by
  refine ⟨by decide, fun total => ?_⟩
  exact total.divides _ (List.mem_singleton.mpr rfl) _ (List.mem_singleton.mpr rfl) 24 0x02
    (by decide)

/-- Once the type DB knows the type, the size checks of the table are total. -/
theorem sizeChecks_total_known
    : SizeChecksTotal (fun name => if name = "goneStruct" then some 24 else none)
        unknownModulus := by
  apply (sizeChecks_total _ _ (by decide)).mpr
  intro node inside _ _
  obtain rfl := List.mem_singleton.mp inside
  exact ⟨"goneStruct", rfl, by decide, by decide⟩

end EQPacketOPCodeDB

end Scry
