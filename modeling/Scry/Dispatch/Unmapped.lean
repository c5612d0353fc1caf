import Scry.Dispatch.Exactness
import Scry.Library.Keyed

/-! Rows the patch has no id for carry `ffff`. They stay in the table so that registrations
bind to them by name; by id all of them share one key, under which the last one is found.
-/

namespace Scry

variable {H : Type}

/-- The id of an unmapped row. -/
def unmapped : UInt16 := 0xffff

-----------------------------------------------------------------------------------------
-- The two indexes of a loaded table
-----------------------------------------------------------------------------------------

namespace EQPacketOPCodeDB

/-- Both hashes point, for each of their keys, to the last row that has it. -/
structure Indexed (db : EQPacketOPCodeDB) : Prop where
  byId : Keyed.IndexesLast db.rows (·.opcode) db.opcodes
  byName : Keyed.IndexesLast db.rows (·.name) db.opcodesByName

theorem indexed_empty : empty.Indexed :=
  ⟨Keyed.indexesLast_nil _, Keyed.indexesLast_nil _⟩

theorem Indexed.add {db : EQPacketOPCodeDB} (h : db.Indexed) (row : EQPacketOPCode)
    : (db.add row).Indexed :=
  ⟨h.byId.append row, h.byName.append row⟩

theorem Indexed.loadRows {db : EQPacketOPCodeDB} (h : db.Indexed) (typeDB : EQPacketTypeDB)
    (array : List (Option OpcodeNode))
    : (db.loadRows typeDB array).2.Indexed := by
  induction array generalizing db with
  | nil => exact h
  | cons item rest ih =>
      cases item with
      | none => exact ih h
      | some node =>
          unfold EQPacketOPCodeDB.loadRows
          cases hr : node.row typeDB with
          | none => exact h
          | some row => exact ih (h.add row)

/-- Loading keeps both indexes, whatever the document holds. -/
theorem Indexed.load {db : EQPacketOPCodeDB} (h : db.Indexed) (typeDB : EQPacketTypeDB)
    (document : TomlDocument)
    : (db.load typeDB document).2.Indexed := by
  cases document with
  | malformed => exact h
  | parsed array =>
      cases array with
      | none => exact h
      | some array => exact h.loadRows typeDB array

/-- Names are unique, and so are ids other than that of the unmapped rows. -/
def RowsUnique (db : EQPacketOPCodeDB) : Prop :=
  db.rows.Pairwise fun a b => a.name ≠ b.name ∧ (a.opcode = b.opcode → a.opcode = unmapped)

instance (db : EQPacketOPCodeDB) : Decidable db.RowsUnique :=
  inferInstanceAs (Decidable (List.Pairwise _ _))

/-- A table filled by one load whose rows are unique. -/
structure Table where
  typeDB : EQPacketTypeDB
  document : TomlDocument
  accepted : (empty.load typeDB document).1 = true
  unique : (empty.load typeDB document).2.RowsUnique

/-- The database a table was loaded into. -/
def Table.db (table : Table) : EQPacketOPCodeDB :=
  (empty.load table.typeDB table.document).2

/-- The row is the last that carries the id of the unmapped rows. -/
def LastUnmapped (db : EQPacketOPCodeDB) (row : Nat) : Prop :=
  (∃ entry, db.rows[row]? = some entry ∧ entry.opcode = unmapped)
  ∧ ∀ (later : Nat) (entry : EQPacketOPCode), row < later → db.rows[later]? = some entry →
      entry.opcode ≠ unmapped

theorem Table.indexed (table : Table) : table.db.Indexed :=
  indexed_empty.load table.typeDB table.document

/-- In a table with unique rows a name leads to the row that carries it. -/
theorem Table.findByName (table : Table) {i : Nat} {entry : EQPacketOPCode}
    (h : table.db.rows[i]? = some entry)
    : table.db.findByName entry.name = some i := by
  refine table.indexed.byName.eq_some h ?_
  intro j other hj hname
  by_contra hne
  obtain ⟨hi', rfl⟩ := List.getElem?_eq_some_iff.mp h
  obtain ⟨hj', rfl⟩ := List.getElem?_eq_some_iff.mp hj
  have hunique := List.pairwise_iff_getElem.mp table.unique
  rcases Nat.lt_or_gt_of_ne hne with hlt | hlt
  · exact (hunique j i hj' hi' hlt).1 hname
  · exact (hunique i j hi' hj' hlt).1 hname.symm

/-- The id of the unmapped rows leads to the last of them. -/
theorem Table.find_unmapped_iff (table : Table) (row : Nat)
    : table.db.find unmapped = some row ↔ table.db.LastUnmapped row :=
  table.indexed.byId unmapped row

end EQPacketOPCodeDB

-----------------------------------------------------------------------------------------
-- What a packet fires
-----------------------------------------------------------------------------------------

/-- Every row is bound by its name, and whatever a packet fires was registered under the
name of a row whose id is the packet's opcode and is not that of the unmapped rows.
-/
structure FiresMapped (db : EQPacketOPCodeDB) (dir : UInt8) (muted : Bool)
    (registrations : List (Registration H)) (call : DispatchCall)
    : Prop where
  binds : ∀ (row : Nat) (entry : EQPacketOPCode) (r : Registration H),
    db.rows[row]? = some entry → r.opcodeName = entry.name →
      ((((registered db dir muted registrations).on r).1 = true
          ↔ ∃ payload ∈ entry.payloads, r.fits dir payload)
        ∧ ∀ ref, (registered db dir muted registrations).resolve r = some ref → ref.row = row)
  mapped : ∃ behind : List (Registration H),
    ((registered db dir muted registrations).dispatchCall call).fired
        = behind.map (·.handler)
      ∧ ∀ r ∈ behind, r ∈ registrations ∧ ∃ entry ∈ db.rows,
          r.opcodeName = entry.name ∧ entry.opcode = call.opcode ∧ entry.opcode ≠ unmapped

section Fired

variable {db : EQPacketOPCodeDB} {dir : UInt8} {muted : Bool}
  {registrations : List (Registration H)} {call : DispatchCall}

/-- The registrations behind what one descriptor activates. -/
def registrationsFor (db : EQPacketOPCodeDB) (dir : UInt8)
    (registrations : List (Registration H)) (row len : Nat) (item : EQPacketPayload × Nat)
    : List (Registration H) :=
  if item.1.matchPacket len dir = some true then
    registrations.filter fun r => r.IsFor db dir { row, index := item.2 }
  else []

theorem activatedBy_registered (row len : Nat) (item : EQPacketPayload × Nat)
    : (registered db dir muted registrations).activatedBy row len item
      = (registrationsFor db dir registrations row len item).map (·.handler) := by
  unfold PacketDispatcher.activatedBy registrationsFor
  rw [registered_dir, activate_registered]
  split <;> simp [handlersFor]

/-- A packet of an unmuted stream whose row is found fires what the registrations behind the
descriptors of that row name.
-/
theorem fired_dispatchCall (hm : muted = false) {row : Nat}
    (hf : db.find call.opcode = some row)
    : ((registered db dir muted registrations).dispatchCall call).fired
      = ((PacketDispatcher.reached dir call.len (db.payloadsAt row)).zipIdx.flatMap
          (registrationsFor db dir registrations row call.len)).map (·.handler) := by
  unfold PacketDispatcher.dispatchCall
  rw [registered_opcodeDB, hf, PacketDispatcher.fired_dispatchPacket (by simp [hm]),
    registered_opcodeDB, registered_dir, List.map_flatMap]
  refine List.flatMap_congr ?_
  intro item _
  exact activatedBy_registered row call.len item

theorem fired_muted (hm : muted = true)
    : ((registered db dir muted registrations).dispatchCall call).fired = [] := by
  simp [PacketDispatcher.dispatchCall, PacketDispatcher.dispatchPacket, hm, Dispatched.fired]

theorem fired_unknown (hf : db.find call.opcode = none)
    : ((registered db dir muted registrations).dispatchCall call).fired = [] := by
  unfold PacketDispatcher.dispatchCall PacketDispatcher.dispatchPacket
  rw [registered_opcodeDB, hf]
  split <;> simp [Dispatched.fired]

/-- Behind whatever a packet fires are registrations under the name of a row with the
packet's opcode.
-/
theorem fired_behind (hi : db.Indexed) (dir : UInt8) (muted : Bool)
    (registrations : List (Registration H)) (call : DispatchCall)
    : ∃ behind : List (Registration H),
        ((registered db dir muted registrations).dispatchCall call).fired
            = behind.map (·.handler)
          ∧ ∀ r ∈ behind, r ∈ registrations ∧ ∃ entry ∈ db.rows,
              r.opcodeName = entry.name ∧ entry.opcode = call.opcode := by
  cases hm : muted with
  | true => exact ⟨[], fired_muted rfl, by simp⟩
  | false =>
      cases hf : db.find call.opcode with
      | none => exact ⟨[], fired_unknown hf, by simp⟩
      | some row =>
          refine ⟨_, fired_dispatchCall rfl hf, ?_⟩
          intro r hr
          obtain ⟨item, -, hitem⟩ := List.mem_flatMap.mp hr
          unfold registrationsFor at hitem
          split at hitem
          · obtain ⟨hin, hfor⟩ := List.mem_filter.mp hitem
            have hname := (of_decide_eq_true hfor).1
            obtain ⟨⟨entry, hentry, hop⟩, -⟩ := (hi.byId call.opcode row).mp hf
            obtain ⟨⟨named, hnamed, hsame⟩, -⟩ := (hi.byName r.opcodeName row).mp hname
            rw [hentry, Option.some.injEq] at hnamed
            subst hnamed
            exact ⟨hin, entry, List.mem_of_getElem? hentry, hsame.symm, hop⟩
          · cases hitem

/-- Nothing is behind the descriptors of a row exactly when no registration is for one of
them that the packet reaches and that accepts it.
-/
theorem registrationsFor_nil_iff (row : Nat)
    : (PacketDispatcher.reached dir call.len (db.payloadsAt row)).zipIdx.flatMap
          (registrationsFor db dir registrations row call.len) = []
      ↔ ∀ item ∈ (PacketDispatcher.reached dir call.len (db.payloadsAt row)).zipIdx,
          item.1.Accepts call.len dir →
            ∀ r ∈ registrations, ¬ r.IsFor db dir { row, index := item.2 } := by
  rw [List.flatMap_eq_nil_iff]
  refine forall₂_congr ?_
  intro item hitem
  have hreached := List.fst_mem_of_mem_zipIdx hitem
  have hsome := List.mem_takeWhile_imp hreached
  obtain ⟨b, hb⟩ := Option.isSome_iff_exists.mp hsome
  have haccepts := EQPacketPayload.matchPacket_eq_some hb
  unfold registrationsFor
  cases b with
  | false =>
      have : ¬ item.1.Accepts call.len dir := by simpa using haccepts
      simp [hb, this]
  | true =>
      have : item.1.Accepts call.len dir := haccepts.mp rfl
      simp [hb, this, List.filter_eq_nil_iff]

end Fired

/-- A packet fires only handlers of the mapped row with its opcode exactly when it does not
carry the id of the unmapped rows, or no registration is for a descriptor of the last of them
that the packet reaches and that accepts it.
-/
theorem firesMapped_iff (table : EQPacketOPCodeDB.Table) (dir : UInt8) (muted : Bool)
    (registrations : List (Registration H)) (call : DispatchCall)
    : FiresMapped table.db dir muted registrations call
      ↔ muted = true ∨ call.opcode ≠ unmapped
        ∨ ∀ row, table.db.LastUnmapped row →
            ∀ item ∈ (PacketDispatcher.reached dir call.len (table.db.payloadsAt row)).zipIdx,
              item.1.Accepts call.len dir →
                ∀ r ∈ registrations, ¬ r.IsFor table.db dir { row, index := item.2 } := by
  have hbinds : ∀ (row : Nat) (entry : EQPacketOPCode) (r : Registration H),
      table.db.rows[row]? = some entry → r.opcodeName = entry.name →
        ((((registered table.db dir muted registrations).on r).1 = true
            ↔ ∃ payload ∈ entry.payloads, r.fits dir payload)
          ∧ ∀ ref, (registered table.db dir muted registrations).resolve r = some ref →
              ref.row = row) := by
    intro row entry r hentry hname
    have hfind := table.findByName hentry
    rw [← hname] at hfind
    constructor
    · rw [on_registered_iff, Registration.Answered]
      simp [hfind, EQPacketOPCodeDB.payloadsAt, hentry]
    · intro ref href
      rw [PacketDispatcher.resolve_eq_some_iff, registered_opcodeDB] at href
      have := hfind.symm.trans href.1
      exact (Option.some.inj this).symm
  constructor
  · intro h
    by_cases hm : muted = true
    · exact Or.inl hm
    by_cases hop : call.opcode = unmapped
    · refine Or.inr (Or.inr ?_)
      intro row hlast
      have hfind := (table.find_unmapped_iff row).mpr hlast
      rw [← hop] at hfind
      obtain ⟨behind, hfired, hbehind⟩ := h.mapped
      have hnil : behind = [] := by
        refine List.eq_nil_iff_forall_not_mem.mpr ?_
        intro r hr
        obtain ⟨-, entry, -, -, hsame, hne⟩ := hbehind r hr
        exact hne (hsame.trans hop)
      rw [fired_dispatchCall (by simpa using hm) hfind, hnil, List.map_nil,
        List.map_eq_nil_iff, registrationsFor_nil_iff] at hfired
      exact hfired
    · exact Or.inr (Or.inl hop)
  · intro h
    refine ⟨hbinds, ?_⟩
    obtain ⟨behind, hfired, hbehind⟩ :=
      fired_behind table.indexed dir muted registrations call
    rcases h with hm | hop | hnone
    · exact ⟨[], fired_muted hm, by simp⟩
    · refine ⟨behind, hfired, ?_⟩
      intro r hr
      obtain ⟨hin, entry, hentry, hname, hsame⟩ := hbehind r hr
      exact ⟨hin, entry, hentry, hname, hsame, by rw [hsame]; exact hop⟩
    · by_cases hop : call.opcode = unmapped
      · refine ⟨[], ?_, by simp⟩
        cases hm : muted with
        | true => exact fired_muted rfl
        | false =>
            cases hf : table.db.find call.opcode with
            | none => exact fired_unknown hf
            | some row =>
                have hlast := (table.find_unmapped_iff row).mp (hop ▸ hf)
                rw [fired_dispatchCall rfl hf, (registrationsFor_nil_iff row).mpr
                  (hnone row hlast)]
      · refine ⟨behind, hfired, ?_⟩
        intro r hr
        obtain ⟨hin, entry, hentry, hname, hsame⟩ := hbehind r hr
        exact ⟨hin, entry, hentry, hname, hsame, by rw [hsame]; exact hop⟩

-----------------------------------------------------------------------------------------
-- An unmapped row that fires
-----------------------------------------------------------------------------------------

/-- An opcode table with one descriptor for the server's packets of any length. -/
def serverNode (id name : String) : Option OpcodeNode :=
  some {
    id := some id
    name := some name
    payloads := some [
      some { dir := some "server", typename := some "uint8_t", sizechecktype := some "none" }
    ]
  }

/-- A mapped row and two unmapped ones. -/
def unmappedTable : EQPacketOPCodeDB.Table where
  typeDB := fun _ => some 1
  document := .parsed (some [
    serverNode "0001" "OP_Mapped", serverNode "ffff" "OP_First", serverNode "ffff" "OP_Last"])
  accepted := by decide
  unique := by decide

/-- A packet that carries `ffff` fires the handler registered for the last unmapped row. -/
theorem firesMapped_unmapped
    : ¬ FiresMapped unmappedTable.db 0x02 false
        [({ opcodeName := "OP_Last", payloadType := "uint8_t", szt := .none, handler := 7 }
          : Registration Nat)]
        { opcode := 0xffff, data := [], len := 0 } := by
  intro h
  obtain ⟨behind, hfired, hbehind⟩ := h.mapped
  have hlength := congrArg List.length hfired
  rw [List.length_map] at hlength
  cases behind with
  | nil => exact absurd hlength (by decide)
  | cons r rest =>
      obtain ⟨-, entry, -, -, hop, hne⟩ := hbehind r (by simp)
      exact hne hop

end Scry
